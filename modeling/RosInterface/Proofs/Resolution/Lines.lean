import RosInterface.Proofs.Definition.Declared
import RosInterface.Proofs.Md5
import RosInterface.Proofs.MessageType.References
import RosInterface.Proofs.Resolution.Structural

namespace RosInterface

/-! # What digested lines say

A digested text has a line for each constant and then one for each field. Values of constants may
look like anything else that stands in such a text, except that they have no line feed. Nevertheless
the text determines what the definition declares:

* Every line has its first space behind a word, and the line of a constant its first equals sign
  behind another one. A word has no space, no equals sign and no line feed (`IsWord`).
* The line of a constant has an equals sign, and that of a field has none.
* A digest is longer than any built-in type without an array bound, and has no bracket.

`Descriptor.inputText_eq_iff` puts this together, for sums of dependencies that have the form of
digests.
-/

/-! ## Words -/

/-- A text without the characters that join words to lines and lines to texts. -/
structure IsWord (text : String) : Prop where
  space : ' ' ∉ text.toList
  equals : '=' ∉ text.toList
  newline : '\n' ∉ text.toList

theorem isWord_of_all {text : String} {p : Char → Bool} (hall : ∀ c ∈ text.toList, p c = true)
    (hspace : p ' ' = false) (hequals : p '=' = false) (hnewline : p '\n' = false) :
    IsWord text := by
  have hother : ∀ c, p c = false → c ∉ text.toList := by
    intro c hfalse hmem
    have htrue := hall c hmem
    rw [hfalse] at htrue
    cases htrue
  exact ⟨hother ' ' hspace, hother '=' hequals, hother '\n' hnewline⟩

theorem isWord_of_isNameChar {text : String} (hall : ∀ c ∈ text.toList, isNameChar c = true) :
    IsWord text :=
  isWord_of_all hall (by decide) (by decide) (by decide)

theorem IsHexSum.isWord {text : String} (h : IsHexSum text) : IsWord text :=
  isWord_of_all h.digits (by decide) (by decide) (by decide)

theorem isWord_of_isMemberName {name : String} (hname : isMemberName name.toList = true) :
    IsWord name :=
  isWord_of_isNameChar (isNameChar_of_isMemberName hname)

/-! ## Built-in types -/

/-- The names of built-in types are short, and have the characters of names. -/
theorem of_mem_builtInTypes {name : String} (hname : name ∈ builtInTypes) :
    name.toList.length < 32 ∧ ∀ c ∈ name.toList, isNameChar c = true := by
  have hall : ∀ name ∈ builtInTypes,
      name.toList.length < 32 ∧ name.toList.all isNameChar = true := by decide +kernel
  exact ⟨(hall name hname).1, List.all_eq_true.mp (hall name hname).2⟩

/-- An array bound is empty or stands in brackets. -/
theorem TypeReference.arraySuffix_cases (type : TypeReference) :
    type.arraySuffix = "" ∨ ∃ digits : List Char, (∀ c ∈ digits, c.isDigit = true) ∧
      type.arraySuffix.toList = '[' :: (digits ++ [']']) := by
  unfold arraySuffix
  split
  · split
    · exact .inr ⟨[], by simp, rfl⟩
    · refine .inr ⟨Nat.toDigits 10 type.arraySize, fun c => ?_, ?_⟩
      · exact Nat.isDigit_of_mem_toDigits (by decide) (by decide)
      · simp
  · exact .inl rfl

namespace Field

variable {x y : Field} {sum otherSum : TypeIdentity → String}

theorem Proper.text_type (h : x.Proper) (hbuiltIn : x.type.isBuiltIn = true) :
    x.type.text.toList = x.type.name.toList ++ x.type.arraySuffix.toList := by
  unfold TypeReference.text TypeReference.baseName TypeReference.identity TypeIdentity.text
  rw [h.package hbuiltIn, String.toList_append]

theorem Proper.isWord_type (h : x.Proper) (hbuiltIn : x.type.isBuiltIn = true) :
    IsWord x.type.text := by
  have hsuffix : ∀ c ∈ x.type.arraySuffix.toList,
      (isNameChar c || c == '[' || c == ']') = true := by
    rcases x.type.arraySuffix_cases with hnone | ⟨digits, hdigits, hsome⟩
    · simp [hnone]
    · rw [hsome]
      intro c hc
      simp only [List.mem_cons, List.mem_append, List.not_mem_nil, or_false] at hc
      rcases hc with rfl | hc | rfl
      · decide
      · simp [isNameChar, hdigits c hc]
      · decide
  refine isWord_of_all (p := fun c => isNameChar c || c == '[' || c == ']') ?_ (by decide)
    (by decide) (by decide)
  rw [h.text_type hbuiltIn, List.forall_mem_append]
  refine ⟨fun c hc => ?_, hsuffix⟩
  simp [(of_mem_builtInTypes (h.name hbuiltIn)).2 c hc]

/-- The name of a built-in type ends where its array bound begins. -/
theorem Proper.text_type_eq_iff (hx : x.Proper) (hy : y.Proper) (hbuiltIn : x.type.isBuiltIn = true)
    (hbuiltIn' : y.type.isBuiltIn = true) :
    x.type.text = y.type.text ↔
      x.type.name = y.type.name ∧ x.type.arraySuffix = y.type.arraySuffix := by
  rw [← String.toList_inj, hx.text_type hbuiltIn, hy.text_type hbuiltIn', ← String.toList_inj,
    ← String.toList_inj]
  refine ⟨fun heq => ?_, fun ⟨hname, hsuffix⟩ => by rw [hname, hsuffix]⟩
  have hbracket : ∀ z : Field, z.Proper → z.type.isBuiltIn = true → '[' ∉ z.type.name.toList := by
    intro z hz hbuiltIn hmem
    exact absurd ((of_mem_builtInTypes (hz.name hbuiltIn)).2 _ hmem) (by decide)
  have hx' := hbracket x hx hbuiltIn
  have hy' := hbracket y hy hbuiltIn'
  rcases x.type.arraySuffix_cases with hnone | ⟨digits, -, hsome⟩ <;>
    rcases y.type.arraySuffix_cases with hnone' | ⟨digits', -, hsome'⟩
  · simpa [hnone, hnone'] using heq
  · rw [hnone, String.toList_empty, List.append_nil, hsome'] at heq
    exact absurd (heq ▸ List.mem_append_right _ List.mem_cons_self) hx'
  · rw [hnone', String.toList_empty, List.append_nil, hsome] at heq
    exact absurd (heq ▸ List.mem_append_right _ List.mem_cons_self) hy'
  · rw [hsome, hsome'] at heq ⊢
    rcases Text.halves_eq hx' hy' heq with ⟨hname, hbound⟩
    rw [hname, hbound]
    exact ⟨rfl, rfl⟩

/-- No digest is written like a built-in type. -/
theorem Proper.text_type_ne (h : x.Proper) (hbuiltIn : x.type.isBuiltIn = true) {text : String}
    (htext : IsHexSum text) : x.type.text ≠ text := by
  rw [Ne, ← String.toList_inj, h.text_type hbuiltIn]
  intro heq
  rcases x.type.arraySuffix_cases with hnone | ⟨digits, -, hsome⟩
  · rw [hnone, String.toList_empty, List.append_nil] at heq
    have hshort := (of_mem_builtInTypes (h.name hbuiltIn)).1
    rw [heq, htext.length] at hshort
    omega
  · rw [hsome] at heq
    refine htext.not_mem (by decide : isSumDigit '[' = false) ?_
    rw [← heq]
    exact List.mem_append_right _ List.mem_cons_self

end Field

/-! ## Lines -/

/-- Two fields have one name and either one built-in type, array bound included, or message types
that are related. -/
inductive SameMember (related : TypeReference → TypeReference → Prop) (x y : Field) : Prop where
  | builtIn (identifier : x.identifier = y.identifier) (left : x.type.isBuiltIn = true)
      (right : y.type.isBuiltIn = true) (name : x.type.name = y.type.name)
      (bound : x.type.arraySuffix = y.type.arraySuffix)
  | message (identifier : x.identifier = y.identifier) (left : x.type.isBuiltIn = false)
      (right : y.type.isBuiltIn = false) (types : related x.type y.type)

theorem SameMember.imp {R S : TypeReference → TypeReference → Prop} {x y : Field}
    (himp : x.type.isBuiltIn = false → y.type.isBuiltIn = false → R x.type y.type →
      S x.type y.type) (h : SameMember R x y) : SameMember S x y := by
  rcases h with ⟨hname, hleft, hright, hsame, hbound⟩ | ⟨hname, hleft, hright, hrelated⟩
  · exact .builtIn hname hleft hright hsame hbound
  · exact .message hname hleft hright (himp hleft hright hrelated)

namespace Field

variable {x y : Field} {sum otherSum : TypeIdentity → String}

/-- What stands for the type of a field in its line. -/
def front (sum : TypeIdentity → String) (field : Field) : String :=
  if field.type.isBuiltIn then field.type.text else sum field.type.identity

theorem toList_sumLine (sum : TypeIdentity → String) (field : Field) :
    (field.sumLine sum).toList = (field.front sum).toList ++ ' ' :: field.identifier.toList := by
  unfold sumLine front text
  cases field.type.isBuiltIn with
  | true => simp
  | false => simp

theorem Proper.isWord_front (h : x.Proper)
    (hsum : x.type.isBuiltIn = false → IsHexSum (sum x.type.identity)) : IsWord (x.front sum) := by
  unfold front
  cases hbuiltIn : x.type.isBuiltIn with
  | true => exact h.isWord_type hbuiltIn
  | false => exact (hsum hbuiltIn).isWord

/-- The line of a field is that of another one only if this is meant. -/
theorem Proper.sumLine_eq_iff (hx : x.Proper) (hy : y.Proper)
    (hsum : x.type.isBuiltIn = false → IsHexSum (sum x.type.identity))
    (hother : y.type.isBuiltIn = false → IsHexSum (otherSum y.type.identity)) :
    x.sumLine sum = y.sumLine otherSum ↔
      SameMember (fun used other => sum used.identity = otherSum other.identity) x y := by
  have hline : x.sumLine sum = y.sumLine otherSum ↔
      x.front sum = y.front otherSum ∧ x.identifier = y.identifier := by
    rw [← String.toList_inj, toList_sumLine, toList_sumLine, ← String.toList_inj,
      ← String.toList_inj]
    constructor
    · exact Text.halves_eq (hx.isWord_front hsum).space (hy.isWord_front hother).space
    · rintro ⟨hfront, hname⟩
      rw [hfront, hname]
  rw [hline]
  unfold front
  constructor
  · rintro ⟨hfront, hname⟩
    -- The same text in front cannot stand for types of both sorts.
    cases hbuiltIn : x.type.isBuiltIn <;> cases hbuiltIn' : y.type.isBuiltIn <;>
      rw [hbuiltIn, hbuiltIn'] at hfront
    · exact .message hname hbuiltIn hbuiltIn' hfront
    · exact absurd hfront.symm (hy.text_type_ne hbuiltIn' (hsum hbuiltIn))
    · exact absurd hfront (hx.text_type_ne hbuiltIn (hother hbuiltIn'))
    · rcases (hx.text_type_eq_iff hy hbuiltIn hbuiltIn').mp hfront with ⟨hsame, hbound⟩
      exact .builtIn hname hbuiltIn hbuiltIn' hsame hbound
  · rintro (⟨hname, hbuiltIn, hbuiltIn', hsame, hbound⟩ | ⟨hname, hbuiltIn, hbuiltIn', hsums⟩)
    · rw [hbuiltIn, hbuiltIn']
      exact ⟨(hx.text_type_eq_iff hy hbuiltIn hbuiltIn').mpr ⟨hsame, hbound⟩, hname⟩
    · rw [hbuiltIn, hbuiltIn']
      exact ⟨hsums, hname⟩

end Field

namespace Constant

variable {c d : Constant}

theorem Proper.isWord_name (h : c.Proper) : IsWord c.type.name :=
  isWord_of_isNameChar (of_mem_builtInTypes h.name).2

theorem Proper.toList_text (h : c.Proper) :
    c.text.toList =
      c.type.name.toList ++ ' ' :: (c.identifier.toList ++ '=' :: c.value.toList) := by
  unfold Constant.text
  rw [h.type]
  simp [TypeReference.builtIn, TypeReference.text, TypeReference.baseName, TypeReference.identity,
    TypeIdentity.text, TypeReference.arraySuffix]

theorem Proper.equals_mem_text (h : c.Proper) : '=' ∈ c.text.toList := by
  rw [h.toList_text]
  simp

theorem Proper.newline_not_mem_text (h : c.Proper) : '\n' ∉ c.text.toList := by
  rw [h.toList_text]
  simp [h.isWord_name.newline, (isWord_of_isMemberName h.identifier).newline, h.value]

/-- Constants of one line are the same, whatever their values look like. -/
theorem Proper.text_eq_iff (hc : c.Proper) (hd : d.Proper) : c.text = d.text ↔ c = d := by
  refine ⟨fun heq => ?_, fun heq => by rw [heq]⟩
  rw [← String.toList_inj, hc.toList_text, hd.toList_text] at heq
  rcases Text.halves_eq hc.isWord_name.space hd.isWord_name.space heq with ⟨htype, hrest⟩
  rcases Text.halves_eq (isWord_of_isMemberName hc.identifier).equals
    (isWord_of_isMemberName hd.identifier).equals hrest with ⟨hidentifier, hvalue⟩
  rw [String.toList_inj] at htype hidentifier hvalue
  have htypes : c.type = d.type := by rw [hc.type, hd.type, htype]
  cases c
  cases d
  cases htypes
  cases hidentifier
  cases hvalue
  rfl

end Constant

/-! ## Texts -/

namespace Signature

/-- The lines of a digested text, which is empty if there are none. -/
def linesOf (text : String) : List String :=
  if text.toList = [] then [] else (text.toList.splitOn '\n').map String.ofList

theorem linesOf_inputText {lines : List String} (hsome : ∀ line ∈ lines, line.toList ≠ [])
    (hlines : ∀ line ∈ lines, '\n' ∉ line.toList) : linesOf (inputText lines) = lines := by
  cases lines with
  | nil => rfl
  | cons first rest =>
    have hsplit : (inputText (first :: rest)).toList.splitOn '\n' =
        (first :: rest).map String.toList := by
      rw [inputText, String.toList_intercalate]
      refine List.splitOn_intercalate '\n' ?_ (by simp)
      simpa using hlines
    have hnonempty : (inputText (first :: rest)).toList ≠ [] := by
      intro hempty
      rw [hempty, List.splitOn_nil, List.map_cons] at hsplit
      exact hsome first List.mem_cons_self (List.cons.inj hsplit).1.symm
    rw [linesOf, if_neg hnonempty, hsplit, List.map_map]
    exact List.map_id'' (fun line => String.ofList_toList) _

end Signature

namespace Descriptor

variable {a b : Descriptor} {sum otherSum : TypeIdentity → String} (ha : Definition.IsRead a)
  (hb : Definition.IsRead b) (hsum : ∀ used ∈ a.dependencyTypes, IsHexSum (sum used))
  (hother : ∀ used ∈ b.dependencyTypes, IsHexSum (otherSum used))

theorem isHexSum_of_field (hsum : ∀ used ∈ a.dependencyTypes, IsHexSum (sum used)) {field : Field}
    (hfield : field ∈ a.fields) (hmessage : field.type.isBuiltIn = false) :
    IsHexSum (sum field.type.identity) :=
  hsum _ (mem_dependencyTypes.mpr ⟨field, hfield, hmessage, rfl⟩)

theorem sumLines_congr {descriptor : Descriptor}
    (hsame : ∀ used ∈ descriptor.dependencyTypes, sum used = otherSum used) :
    descriptor.sumLines sum = descriptor.sumLines otherSum := by
  unfold sumLines
  refine congrArg _ (List.map_congr_left fun field hfield => ?_)
  unfold Field.sumLine
  cases hbuiltIn : field.type.isBuiltIn with
  | true => rfl
  | false => rw [hsame _ (mem_dependencyTypes.mpr ⟨field, hfield, hbuiltIn, rfl⟩)]

include ha hsum in
/-- The line of a field has no equals sign and no line feed. -/
theorem not_mem_sumLine {field : Field} (hfield : field ∈ a.fields) :
    '=' ∉ (field.sumLine sum).toList ∧ '\n' ∉ (field.sumLine sum).toList := by
  have hproper := ha.proper_field hfield
  have hfront := hproper.isWord_front (isHexSum_of_field hsum hfield)
  have hname := isWord_of_isMemberName hproper.identifier
  rw [Field.toList_sumLine]
  constructor
  · simp [hfront.equals, hname.equals]
  · simp [hfront.newline, hname.newline]

include ha hsum in
theorem linesOf_inputText :
    Signature.linesOf (Signature.inputText (a.sumLines sum)) = a.sumLines sum := by
  refine Signature.linesOf_inputText ?_ ?_
  · rw [sumLines, List.forall_mem_append, List.forall_mem_map, List.forall_mem_map]
    refine ⟨fun constant hconstant hempty => ?_, fun field hfield hempty => ?_⟩
    · have hmem := (ha.proper_constant hconstant).equals_mem_text
      rw [hempty] at hmem
      cases hmem
    · rw [Field.toList_sumLine] at hempty
      simp at hempty
  · rw [sumLines, List.forall_mem_append, List.forall_mem_map, List.forall_mem_map]
    exact ⟨fun constant hconstant => (ha.proper_constant hconstant).newline_not_mem_text,
      fun field hfield => (not_mem_sumLine ha hsum hfield).2⟩

include ha hsum in
/-- The lines with an equals sign are those of constants. -/
theorem filter_sumLines :
    (a.sumLines sum).filter (fun line => line.toList.contains '=') = a.constants.map Constant.text ∧
      (a.sumLines sum).filter (fun line => !line.toList.contains '=') =
        a.fields.map (Field.sumLine sum) := by
  have hconstants : ∀ line ∈ a.constants.map Constant.text, line.toList.contains '=' = true := by
    rw [List.forall_mem_map]
    exact fun constant hconstant =>
      List.contains_iff_mem.mpr (ha.proper_constant hconstant).equals_mem_text
  have hfields : ∀ line ∈ a.fields.map (Field.sumLine sum),
      line.toList.contains '=' = false := by
    rw [List.forall_mem_map]
    intro field hfield
    simpa using (not_mem_sumLine ha hsum hfield).1
  rw [sumLines, List.filter_append, List.filter_append]
  constructor
  · rw [List.filter_eq_self.mpr hconstants, List.filter_eq_nil_iff.mpr, List.append_nil]
    intro line hline
    rw [hfields line hline]
    exact Bool.false_ne_true
  · rw [List.filter_eq_nil_iff.mpr, List.filter_eq_self.mpr, List.nil_append]
    · intro line hline
      rw [hfields line hline, Bool.not_false]
    · intro line hline
      rw [hconstants line hline, Bool.not_true]
      exact Bool.false_ne_true

include ha hb hsum hother in
/-- Definitions have the same lines only if they declare the same. -/
theorem sumLines_eq_iff :
    a.sumLines sum = b.sumLines otherSum ↔
      a.constants = b.constants ∧
        List.Forall₂ (SameMember fun used other => sum used.identity = otherSum other.identity)
          a.fields b.fields := by
  have hconstants : a.constants.map Constant.text = b.constants.map Constant.text ↔
      a.constants = b.constants := by
    rw [map_eq_map_iff, ← List.forall₂_eq_eq_eq]
    exact forall₂_congr fun c hc d hd =>
      (ha.proper_constant hc).text_eq_iff (hb.proper_constant hd)
  have hfields : a.fields.map (Field.sumLine sum) = b.fields.map (Field.sumLine otherSum) ↔
      List.Forall₂ (SameMember fun used other => sum used.identity = otherSum other.identity)
        a.fields b.fields := by
    rw [map_eq_map_iff]
    exact forall₂_congr fun x hx y hy => (ha.proper_field hx).sumLine_eq_iff (hb.proper_field hy)
      (isHexSum_of_field hsum hx) (isHexSum_of_field hother hy)
  rw [← hconstants, ← hfields]
  refine ⟨fun heq => ?_, fun ⟨hc, hf⟩ => by rw [sumLines, sumLines, hc, hf]⟩
  rcases filter_sumLines ha hsum with ⟨hac, haf⟩
  rcases filter_sumLines hb hother with ⟨hbc, hbf⟩
  rw [← hac, ← haf, heq]
  exact ⟨hbc, hbf⟩

include ha hb hsum hother in
/-- Definitions have the same text only if they declare the same. -/
theorem inputText_eq_iff :
    Signature.inputText (a.sumLines sum) = Signature.inputText (b.sumLines otherSum) ↔
      a.constants = b.constants ∧
        List.Forall₂ (SameMember fun used other => sum used.identity = otherSum other.identity)
          a.fields b.fields := by
  rw [← sumLines_eq_iff ha hb hsum hother]
  refine ⟨fun heq => ?_, fun heq => by rw [heq]⟩
  rw [← linesOf_inputText ha hsum, heq, linesOf_inputText hb hother]

end Descriptor

end RosInterface
