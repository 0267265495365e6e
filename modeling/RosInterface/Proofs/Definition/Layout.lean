import Mathlib.Logic.Relation
import RosInterface.Proofs.Definition.Reading
import RosInterface.Proofs.Resolution.Texts

namespace RosInterface

open Text (AllBlank)

/-! # The layout of definition files

Which remarks a file has, which blanks stand at the ends of its lines and how its lines end is a
matter of layout, and of no consequence but for the texts that definitions carry along:

* `outline` is what the lines of a file come to, section by section. Files of one outline are read
  alike, except for the texts (`readMessages_of_outline_eq`);
* a `Relayout` changes one line or its surroundings, and keeps the outline (`Relayout.outline_eq`).
  So does any sequence of such changes, back and forth.

A text constant is the one declaration that a comment cannot be put behind, since the comment would
become part of its value.
-/

/-- The message type without the text of its definition. -/
def ParsedMessage.bare (message : ParsedMessage) : ParsedMessage :=
  { message with descriptor := message.descriptor.bare }

/-- The call that tells a resolver about a message type. -/
def ParsedMessage.call (message : ParsedMessage) : Resolver.Call :=
  .add message.type message.descriptor

/-- A constant whose value runs to the end of its line. -/
def Item.IsTextConstant (item : Item) : Prop :=
  ∃ name value, item = .constant ⟨.builtIn "string", name, value⟩

namespace Declaration

variable {package : String} {type : TypeReference} {rest tail line ending : List Char} {item : Item}
  {name value : String}

/-! ## Comments behind declarations -/

theorem IsRemark.append_comment (h : IsRemark tail) (words : List Char) :
    IsRemark (tail ++ '#' :: words) := by
  cases h with
  | blank blank => exact .comment blank words
  | @comment gap blank earlier =>
    rw [List.append_assoc]
    exact .comment blank (earlier ++ '#' :: words)

theorem Member.append_comment (h : Member type rest item) (other : ¬ item.IsTextConstant)
    (words : List Char) : Member type (rest ++ '#' :: words) item := by
  cases h with
  | field blank proper remark =>
    have hmember := @Member.field type _ _ _ blank proper (remark.append_comment words)
    simpa only [List.append_assoc] using hmember
  | constant others blank proper spaced unhashed remark =>
    have hmember := Member.constant others blank proper spaced unhashed
      (remark.append_comment words)
    simpa only [List.append_assoc, List.cons_append] using hmember
  | text blank proper spaced => exact absurd ⟨_, _, rfl⟩ other

/-- A comment behind a declaration does not matter, except to a text constant. -/
theorem Declares.append_comment (h : Declares package line item) (other : ¬ item.IsTextConstant)
    (words : List Char) : Declares package (line ++ '#' :: words) item := by
  cases h with
  | intro indented denotes spaced member =>
    have hdeclares := Declares.intro indented denotes spaced (member.append_comment other words)
    simpa only [List.append_assoc, List.cons_append] using hdeclares

/-- Behind a text constant, a comment is a part of the value. -/
theorem Member.exists_longer_value
    (h : Member type rest (.constant ⟨.builtIn "string", name, value⟩)) (words : List Char) :
    ∃ gap, AllBlank gap ∧ Member type (rest ++ '#' :: words) (.constant ⟨.builtIn "string", name,
      value ++ String.ofList (gap ++ '#' :: Text.trimEnd words)⟩) := by
  cases h with
  | constant other blank proper spaced unhashed remark => exact absurd rfl other
  | @text _ _ _ value blank proper spaced =>
    rcases Text.exists_trim_append_cons (by decide : Text.isBlank '#' = false) value words with
      ⟨gap, hgap, hvalue⟩
    have hmember := @Member.text _ _ _ (value ++ '#' :: words) blank proper spaced
    rw [hvalue, String.ofList_append] at hmember
    refine ⟨gap, hgap, ?_⟩
    simpa only [List.append_assoc, List.cons_append] using hmember

theorem Declares.exists_longer_value
    (h : Declares package line (.constant ⟨.builtIn "string", name, value⟩)) (words : List Char) :
    ∃ gap, AllBlank gap ∧ Declares package (line ++ '#' :: words) (.constant ⟨.builtIn "string",
      name, value ++ String.ofList (gap ++ '#' :: Text.trimEnd words)⟩) := by
  cases h with
  | intro indented denotes spaced member =>
    rcases member.exists_longer_value words with ⟨gap, hgap, hmember⟩
    have hdeclares := Declares.intro indented denotes spaced hmember
    refine ⟨gap, hgap, ?_⟩
    simpa only [List.append_assoc, List.cons_append] using hdeclares

theorem Declares.append_blank (h : Declares package line item) (hending : AllBlank ending) :
    Declares package (line ++ ending) item :=
  h.surround Text.allBlank_nil hending

end Declaration

namespace Definition

open Declaration (IsRemark Declares)
open Section (isSeparator linesOf)

variable {package : String} {item : Item}

/-! ## Outlines -/

/-- What a line that is no separator comes to. -/
def found (package line : String) : List (Except DeclarationFault Item) :=
  match Declaration.ofLine package line with
  | .ok none => []
  | .ok (some item) => [.ok item]
  | .error fault => [.error fault]

/-- What the lines of a file come to, section by section. -/
def outline (package : String) (lines : List String) : List (List (Except DeclarationFault Item)) :=
  (lines.splitOnP isSeparator).map (·.flatMap (found package))

/-- What a line adds in front of the outline of the lines behind it. -/
def enter (package line : String) (sections : List (List (Except DeclarationFault Item))) :
    List (List (Except DeclarationFault Item)) :=
  if isSeparator line then [] :: sections else sections.modifyHead (found package line ++ ·)

theorem outline_cons (package line : String) (rest : List String) :
    outline package (line :: rest) = enter package line (outline package rest) := by
  unfold outline enter
  rw [List.splitOnP_cons_eq_if_modifyHead]
  split
  · rfl
  · cases hrest : rest.splitOnP isSeparator with
    | nil => exact absurd hrest (List.splitOnP_ne_nil _ _)
    | cons first others => rfl

theorem outline_append (package : String) (front back : List String) :
    outline package (front ++ back) = front.foldr (enter package) (outline package back) := by
  induction front with
  | nil => rfl
  | cons line front ih => rw [List.cons_append, outline_cons, ih, List.foldr_cons]

section

variable {line other : List Char}

/-- Only what is left of a line when it is trimmed counts. -/
theorem enter_congr (htrim : Text.trim line = Text.trim other) :
    enter package (String.ofList line) = enter package (String.ofList other) := by
  have hseparator : isSeparator (String.ofList line) = isSeparator (String.ofList other) := by
    simp only [isSeparator, String.trimBlanks, String.toList_ofList, htrim]
  have hfound : found package (String.ofList line) = found package (String.ofList other) := by
    simp only [found, Declaration.ofLine_eq, String.toList_ofList, htrim]
  funext sections
  rw [enter, enter, hseparator, hfound]

theorem enter_of_isRemark (h : IsRemark line) : enter package (String.ofList line) = id := by
  rw [← String.toList_ofList (l := line)] at h
  have hread : Declaration.ofLine package (String.ofList line) = .ok none :=
    Declaration.ofLine_eq_none_iff.mpr h
  funext sections
  rw [enter, Section.isSeparator_eq_false hread, found, hread]
  cases sections <;> rfl

theorem enter_of_declares (h : Declares package line item) :
    enter package (String.ofList line) = List.modifyHead (.ok item :: ·) := by
  rw [← String.toList_ofList (l := line)] at h
  have hread := h.ofLine_eq
  funext sections
  rw [enter, Section.isSeparator_eq_false hread, found, hread]
  rfl

end

/-- The lines of a text have the outline of its pieces between line feeds. -/
theorem outline_lines (package : String) (text : List Char) :
    outline package ((Text.lines text).map String.ofList) =
      outline package ((text.splitOn '\n').map String.ofList) := by
  -- They differ in a last piece without characters, and in carriage returns, which are blank.
  rw [Text.lines_eq]
  generalize text.splitOn '\n' = pieces
  fun_induction Text.closeLines pieces with
  | case1 => rfl
  | case2 last hempty =>
    rw [List.isEmpty_iff.mp hempty, List.map_singleton, outline_cons,
      enter_of_isRemark (.blank Text.allBlank_nil)]
    rfl
  | case3 last hsome => rfl
  | case4 piece others _ ih =>
    rw [List.map_cons, List.map_cons, outline_cons, outline_cons, ih,
      enter_congr (Text.trim_dropReturn piece)]

/-! ## Reading -/

variable {file : MessageFile} {text edited : String} {messages : List ParsedMessage}

theorem found_of_declarations {lines : List String} {items : List Item}
    (h : Declarations package lines items) : lines.flatMap (found package) = items.map .ok := by
  induction h with
  | nil => rfl
  | remark remark _ ih =>
    rw [List.flatMap_cons, ih, found, Declaration.ofLine_eq_none_iff.mpr remark]
    rfl
  | item declares _ ih =>
    rw [List.flatMap_cons, ih, found, declares.ofLine_eq]
    rfl

/-- A file that is read has the outline of what is read. -/
theorem outline_of_readMessages (hread : readMessages package file text = .ok messages) :
    outline package (linesOf text) = messages.map fun message =>
      message.descriptor.items.map .ok := by
  have hitems := (declarations_of_readMessages hread).imp fun _ _ => found_of_declarations
  rw [List.forall₂_map_right_iff] at hitems
  exact map_eq_map_iff.mpr hitems

/-- What is wrong with a line is found in its section. -/
theorem exists_fault_of_mem {lines : List String} {line : String} {fault : DeclarationFault}
    (hline : line ∈ lines) (hseparator : isSeparator line = false)
    (hfault : Declaration.ofLine package line = .error fault) :
    ∃ part ∈ outline package lines, .error fault ∈ part := by
  have hkept : line ∈ (lines.splitOnP isSeparator).flatten := by
    rw [Text.flatten_splitOnP, List.mem_filter, hseparator]
    exact ⟨hline, rfl⟩
  rcases List.mem_flatten.mp hkept with ⟨part, hpart, hmem⟩
  refine ⟨_, List.mem_map_of_mem hpart, List.mem_flatMap.mpr ⟨line, hmem, ?_⟩⟩
  rw [found, hfault]
  exact List.mem_singleton_self _

/-- A file whose outline has as many sections as it takes, and no fault, is read as what its outline
says. -/
theorem exists_readMessages_of_outline {items : List (List Item)}
    (hlength : items.length = file.kind.sectionParts.length)
    (houtline : outline package (linesOf text) = items.map (·.map .ok)) :
    ∃ messages, readMessages package file text = .ok messages ∧
      messages.map (·.descriptor.items) = items := by
  cases hread : readMessages package file text with
  | ok messages =>
    refine ⟨messages, rfl, ?_⟩
    rw [outline_of_readMessages hread] at houtline
    have hok : Function.Injective (List.map (Except.ok : Item → Except DeclarationFault Item)) :=
      List.map_injective_iff.mpr fun _ _ => Except.ok.inj
    refine List.map_injective_iff.mpr hok ?_
    rw [List.map_map]
    exact houtline
  | error error =>
    have hcount : (linesOf text).countP isSeparator = file.kind.separatorCount := by
      have hsections := congrArg List.length houtline
      rw [outline, List.length_map, List.length_map, hlength, MessageKind.length_sectionParts,
        ← Section.map_lines_ofLines 1 1, List.length_map, Section.length_ofLines] at hsections
      exact Nat.succ.inj hsections
    rcases (readMessages_eq_error_iff hcount).mp hread with
      ⟨front, line, back, fault, hlines, -, hbad, hfault, -⟩
    have hline : line ∈ linesOf text := hlines ▸ List.mem_append_right _ List.mem_cons_self
    rcases exists_fault_of_mem hline hbad.separator hfault with ⟨part, hpart, hmem⟩
    rw [houtline] at hpart
    rcases List.mem_map.mp hpart with ⟨declared, -, rfl⟩
    simp at hmem

/-- The message type of a section with some declarations, but for its text. -/
def messageOf (package : String) (file : MessageFile) (role : Option MessagePart)
    (items : List Item) : ParsedMessage :=
  ⟨.message package (Naming.rosTypeName file.typeName role), file.kind, role, file.typeName,
    ⟨items, ""⟩⟩

theorem map_part_of_readMessages (hread : readMessages package file text = .ok messages) :
    messages.map (·.part) = file.kind.sectionParts := by
  simp only [readMessages] at hread
  split at hread
  · rename_i hlength
    rw [← List.map_fst_zip (Nat.le_of_eq hlength.symm)]
    refine map_eq_of_mapM_eq_ok hread fun entry message hentry => ?_
    rcases bind_eq_ok_iff.mp hentry with ⟨descriptor, -, hmessage⟩
    cases hmessage
    rfl
  · cases hread

theorem bare_of_mem_readMessages (hread : readMessages package file text = .ok messages) :
    ∀ message ∈ messages,
      message.bare = messageOf package file message.part message.descriptor.items := by
  simp only [readMessages] at hread
  split at hread
  · intro message hmessage
    rcases exists_of_mem_of_mapM_eq_ok hread hmessage with ⟨entry, -, hentry⟩
    rcases bind_eq_ok_iff.mp hentry with ⟨descriptor, -, hmessage⟩
    cases hmessage
    rfl
  · cases hread

/-- What is read from a file, but for the texts, is told by its declarations. -/
theorem map_bare_of_readMessages (hread : readMessages package file text = .ok messages) :
    messages.map ParsedMessage.bare = List.zipWith (messageOf package file)
      file.kind.sectionParts (messages.map (·.descriptor.items)) := by
  rw [← map_part_of_readMessages hread, List.zipWith_map, List.zipWith_self]
  exact List.map_congr_left (bare_of_mem_readMessages hread)

theorem length_of_readMessages (hread : readMessages package file text = .ok messages) :
    messages.length = file.kind.sectionParts.length := by
  rw [← map_part_of_readMessages hread, List.length_map]

/-- Files of one outline are read alike, except for the texts of their sections. -/
theorem readMessages_of_outline_eq (hread : readMessages package file text = .ok messages)
    (houtline : outline package (linesOf edited) = outline package (linesOf text)) :
    ∃ others, readMessages package file edited = .ok others ∧
      others.map ParsedMessage.bare = messages.map ParsedMessage.bare := by
  have hitems : outline package (linesOf edited) =
      (messages.map (·.descriptor.items)).map (·.map .ok) := by
    rw [houtline, outline_of_readMessages hread, List.map_map]
    rfl
  rcases exists_readMessages_of_outline
    ((List.length_map _).trans (length_of_readMessages hread)) hitems with ⟨others, hothers, hsame⟩
  refine ⟨others, hothers, ?_⟩
  rw [map_bare_of_readMessages hothers, map_bare_of_readMessages hread, hsame]

/-! ## Changes of the layout -/

/-- A change of the layout of a definition in `package`. Its lines are the pieces of its text between
line feeds, so that a carriage return in front of a line feed is a blank at the end of its line. -/
inductive Relayout (package : String) : List (List Char) → List (List Char) → Prop where
  /-- A blank line or a comment on a line of its own is put in. -/
  | insert (front back : List (List Char)) {line : List Char} (remark : IsRemark line) :
      Relayout package (front ++ back) (front ++ line :: back)
  /-- The blanks around what a line says are exchanged. -/
  | respace (front back : List (List Char)) {lead trail newLead newTrail : List Char}
      (words : List Char) (lead_blank : AllBlank lead) (trail_blank : AllBlank trail)
      (newLead_blank : AllBlank newLead) (newTrail_blank : AllBlank newTrail) :
      Relayout package (front ++ (lead ++ (words ++ trail)) :: back)
        (front ++ (newLead ++ (words ++ newTrail)) :: back)
  /-- A carriage return is put in front of a line feed. -/
  | returned (front : List (List Char)) (line next : List Char) (back : List (List Char)) :
      Relayout package (front ++ line :: next :: back) (front ++ (line ++ ['\r']) :: next :: back)
  /-- A comment is put behind a declaration, in front of the blanks that end its line. -/
  | comment (front back : List (List Char)) {line ending : List Char} {item : Item}
      (declares : Declares package line item) (other : ¬ item.IsTextConstant)
      (ending_blank : AllBlank ending) (words : List Char) :
      Relayout package (front ++ (line ++ ending) :: back)
        (front ++ (line ++ ('#' :: words ++ ending)) :: back)

/-- Texts that can be turned into each other by changes of the layout, made or taken back. -/
def SameLayout (package : String) : List Char → List Char → Prop :=
  Relation.EqvGen fun old new => Relayout package (old.splitOn '\n') (new.splitOn '\n')

theorem outline_congr {line other : String} (h : enter package line = enter package other)
    (front back : List String) :
    outline package (front ++ line :: back) = outline package (front ++ other :: back) := by
  rw [outline_append, outline_append, outline_cons, outline_cons, h]

/-- Changes of the layout keep the outline. -/
theorem Relayout.outline_eq {lines changed : List (List Char)}
    (h : Relayout package lines changed) :
    outline package (lines.map String.ofList) = outline package (changed.map String.ofList) := by
  cases h with
  | insert front back remark =>
    rw [List.map_append, List.map_append, List.map_cons, outline_append, outline_append,
      outline_cons, enter_of_isRemark remark, id]
  | respace front back words lead_blank trail_blank newLead_blank newTrail_blank =>
    rw [List.map_append, List.map_append, List.map_cons, List.map_cons]
    refine outline_congr (enter_congr ?_) _ _
    rw [Text.trim_surround lead_blank trail_blank, Text.trim_surround newLead_blank newTrail_blank]
  | returned front line next back =>
    rw [List.map_append, List.map_append, List.map_cons, List.map_cons]
    exact outline_congr (enter_congr (Text.trim_concat (by decide)).symm) _ _
  | @comment front back line ending item declares other ending_blank words =>
    rw [List.map_append, List.map_append, List.map_cons, List.map_cons]
    refine outline_congr ?_ _ _
    rw [enter_of_declares (declares.append_blank ending_blank), List.cons_append,
      enter_of_declares (declares.append_comment other (words ++ ending))]

theorem SameLayout.outline_eq {old new : List Char} (h : SameLayout package old new) :
    outline package ((old.splitOn '\n').map String.ofList) =
      outline package ((new.splitOn '\n').map String.ofList) := by
  induction h with
  | rel old new change => exact change.outline_eq
  | refl old => rfl
  | symm old new _ ih => exact ih.symm
  | trans old between new _ _ ihFirst ihSecond => exact ihFirst.trans ihSecond

/-! ## Changes of a value -/

/-- What stands in front of some lines adds something in front of their first section, and sections
in front of it. -/
theorem exists_foldr_enter (package : String) (front : List String) :
    ∃ before lead, ∀ head rest,
      front.foldr (enter package) (head :: rest) = before ++ (lead ++ head) :: rest := by
  induction front with
  | nil => exact ⟨[], [], fun _ _ => rfl⟩
  | cons line front ih =>
    rcases ih with ⟨before, lead, hfront⟩
    simp only [List.foldr_cons, hfront, enter]
    cases isSeparator line with
    | true => exact ⟨[] :: before, lead, fun _ _ => rfl⟩
    | false =>
      cases before with
      | nil =>
        refine ⟨[], found package line ++ lead, fun head rest => ?_⟩
        rw [List.append_assoc]
        rfl
      | cons first before =>
        exact ⟨(found package line ++ first) :: before, lead, fun _ _ => rfl⟩

/-- A declaration has a place in the outline, whatever it declares. -/
theorem exists_outline_of_declares (package : String) (front back : List String) :
    ∃ before lead trail after, ∀ {line : List Char} {item : Item}, Declares package line item →
      outline package (front ++ String.ofList line :: back) =
        before ++ (lead ++ .ok item :: trail) :: after := by
  rcases exists_foldr_enter package front with ⟨before, lead, hfront⟩
  cases hback : outline package back with
  | nil =>
    rw [outline, List.map_eq_nil_iff] at hback
    exact absurd hback (List.splitOnP_ne_nil _ _)
  | cons trail after =>
    refine ⟨before, lead, trail, after, fun hdeclares => ?_⟩
    rw [outline_append, outline_cons, hback, enter_of_declares hdeclares]
    exact hfront _ after

/-- Where one line of a file declares something else than before, this is the only difference. -/
theorem exists_readMessages_of_declares {front back : List (List Char)} {line changed : List Char}
    {old new : Item} (hread : readMessages package file text = .ok messages)
    (hlines : text.toList.splitOn '\n' = front ++ line :: back) (hold : Declares package line old)
    (hchanged : edited.toList.splitOn '\n' = front ++ changed :: back)
    (hnew : Declares package changed new) :
    ∃ others first message last before after, messages = first ++ message :: last ∧
      message.descriptor.items = before ++ old :: after ∧
      readMessages package file edited = .ok others ∧
      others.map ParsedMessage.bare = first.map ParsedMessage.bare ++
        { message with descriptor := ⟨before ++ new :: after, ""⟩ } ::
          last.map ParsedMessage.bare := by
  rcases exists_outline_of_declares package (front.map String.ofList) (back.map String.ofList) with
    ⟨sections, lead, trail, rest, houtline⟩
  have hlinesOutline := houtline hold
  have hchangedOutline := houtline hnew
  rw [← List.map_cons, ← List.map_append, ← hlines, ← outline_lines, ← linesOf,
    outline_of_readMessages hread] at hlinesOutline
  rw [← List.map_cons, ← List.map_append, ← hchanged, ← outline_lines, ← linesOf]
    at hchangedOutline
  -- The place of the declaration in the outline is its place in what was read.
  rcases List.map_eq_append_iff.mp hlinesOutline with ⟨first, tail, rfl, hfirst, htail⟩
  rcases List.map_eq_cons_iff.mp htail with ⟨message, last, rfl, hmessage, hlast⟩
  rcases List.map_eq_append_iff.mp hmessage with ⟨before, items, hitems, hbefore, hrest⟩
  rcases List.map_eq_cons_iff.mp hrest with ⟨item, after, rfl, hitem, hafter⟩
  obtain rfl : item = old := Except.ok.inj hitem
  have hdeclared : outline package (linesOf edited) =
      (first.map (·.descriptor.items) ++ (before ++ new :: after) ::
        last.map (·.descriptor.items)).map (·.map .ok) := by
    rw [hchangedOutline, ← hfirst, ← hbefore, ← hafter, ← hlast]
    simp [Function.comp_def]
  have hlength : (first.map (·.descriptor.items) ++ (before ++ new :: after) ::
      last.map (·.descriptor.items)).length = file.kind.sectionParts.length := by
    rw [← length_of_readMessages hread]
    simp
  rcases exists_readMessages_of_outline hlength hdeclared with ⟨others, hothers, hsame⟩
  refine ⟨others, first, message, last, before, after, rfl, hitems, hothers, ?_⟩
  have hbare := bare_of_mem_readMessages hread
  rw [List.forall_mem_append, List.forall_mem_cons] at hbare
  have hmessageNew : messageOf package file message.part (before ++ new :: after) =
      { message with descriptor := ⟨before ++ new :: after, ""⟩ } :=
    congrArg (fun other : ParsedMessage =>
      { other with descriptor := ⟨before ++ new :: after, ""⟩ }) hbare.2.1.symm
  rw [map_bare_of_readMessages hothers, hsame, ← map_part_of_readMessages hread, List.map_append,
    List.map_cons, List.zipWith_append (by simp), List.zipWith_cons_cons, List.zipWith_map,
    List.zipWith_map, List.zipWith_self, List.zipWith_self, hmessageNew,
    List.map_congr_left hbare.1, List.map_congr_left hbare.2.2]

/-- A file whose layout is changed is read with the same outcome, except for the texts of its
definitions, and a resolver that is told so signs the same types alike, whatever else it is told and
asked. Text put behind a text constant goes to its value, and changes nothing else. -/
theorem readMessages_ignores_layout (hread : readMessages package file text = .ok messages) :
    (∀ edited : String, SameLayout package text.toList edited.toList →
      ∃ others, readMessages package file edited = .ok others ∧
        others.map ParsedMessage.bare = messages.map ParsedMessage.bare ∧
        ∀ before after identity sum,
          (Resolver.performAll {} (before ++ others.map ParsedMessage.call ++ after)).Signs
              identity sum ↔
            (Resolver.performAll {} (before ++ messages.map ParsedMessage.call ++ after)).Signs
              identity sum) ∧
    ∀ (edited : String) (front back : List (List Char)) (line ending words : List Char)
      (name value : String),
      Declares package line (.constant ⟨.builtIn "string", name, value⟩) → AllBlank ending →
      text.toList.splitOn '\n' = front ++ (line ++ ending) :: back →
      edited.toList.splitOn '\n' = front ++ (line ++ ('#' :: words ++ ending)) :: back →
      ∃ gap others first message last before after, AllBlank gap ∧
        messages = first ++ message :: last ∧
        message.descriptor.items =
          before ++ .constant ⟨.builtIn "string", name, value⟩ :: after ∧
        readMessages package file edited = .ok others ∧
        others.map ParsedMessage.bare = first.map ParsedMessage.bare ++
          { message with descriptor := ⟨before ++ .constant ⟨.builtIn "string", name,
              value ++ String.ofList (gap ++ '#' :: Text.trimEnd words)⟩ :: after, ""⟩ } ::
            last.map ParsedMessage.bare := by
  refine ⟨fun edited hsame => ?_, ?_⟩
  · have houtline : outline package (linesOf edited) = outline package (linesOf text) := by
      rw [linesOf, linesOf, outline_lines, outline_lines, hsame.outline_eq]
    rcases readMessages_of_outline_eq hread houtline with ⟨others, hothers, hbare⟩
    refine ⟨others, hothers, hbare, fun before after => Resolver.signs_iff_of_bare ?_⟩
    have hcalls : ∀ told : List ParsedMessage, (told.map ParsedMessage.call).map Resolver.Call.bare =
        (told.map ParsedMessage.bare).map ParsedMessage.call := by
      intro told
      rw [List.map_map, List.map_map]
      rfl
    simp only [List.map_append, hcalls, hbare]
  · intro edited front back line ending words name value hdeclares hending hlines hedited
    rcases hdeclares.exists_longer_value words with ⟨gap, hgap, hlonger⟩
    have hchanged := hlonger.append_blank hending
    rw [List.append_assoc] at hchanged
    rcases exists_readMessages_of_declares hread hlines (hdeclares.append_blank hending) hedited
      hchanged with ⟨others, first, message, last, before, after, hsplit, hitems, hothers, hbare⟩
    exact ⟨gap, others, first, message, last, before, after, hgap, hsplit, hitems, hothers, hbare⟩

/-- A comment with an equals sign behind a field, and a hash sign behind a text constant. -/
theorem readMessages_ignores_comment :
    ∃ messages, readMessages "demo" ⟨⟨"A.msg"⟩, .message⟩ "int32 a\nstring S=v " = .ok messages ∧
      (∃ others,
        readMessages "demo" ⟨⟨"A.msg"⟩, .message⟩ "int32 a#b=1\nstring S=v " = .ok others ∧
        others.map ParsedMessage.bare = messages.map ParsedMessage.bare) ∧
      ∃ gap others first message last before after, AllBlank gap ∧
        messages = first ++ message :: last ∧
        message.descriptor.items =
          before ++ .constant ⟨.builtIn "string", "S", "v"⟩ :: after ∧
        readMessages "demo" ⟨⟨"A.msg"⟩, .message⟩ "int32 a\nstring S=v#1 " = .ok others ∧
        others.map ParsedMessage.bare = first.map ParsedMessage.bare ++
          { message with descriptor := ⟨before ++ .constant ⟨.builtIn "string", "S",
              "v" ++ String.ofList (gap ++ '#' :: Text.trimEnd ['1'])⟩ :: after, ""⟩ } ::
            last.map ParsedMessage.bare := by
  obtain ⟨messages, hread⟩ : ∃ messages, readMessages "demo" ⟨⟨"A.msg"⟩, .message⟩
      "int32 a\nstring S=v " = .ok messages := exists_of_isSome (by decide +kernel)
  have hfield : Declares "demo" "int32 a".toList (.field ⟨.builtIn "int32", "a"⟩) :=
    Declaration.ofLine_eq_some_iff.mp (by decide +kernel)
  have hconstant : Declares "demo" "string S=v".toList
      (.constant ⟨.builtIn "string", "S", "v"⟩) :=
    Declaration.ofLine_eq_some_iff.mp (by decide +kernel)
  have hlines : "int32 a\nstring S=v ".toList.splitOn '\n' =
      [] ++ ("int32 a".toList ++ []) :: ["string S=v ".toList] := by decide +kernel
  have hcomment : "int32 a#b=1\nstring S=v ".toList.splitOn '\n' =
      [] ++ ("int32 a".toList ++ ('#' :: "b=1".toList ++ [])) :: ["string S=v ".toList] := by
    decide +kernel
  have hsame : SameLayout "demo" "int32 a\nstring S=v ".toList
      "int32 a#b=1\nstring S=v ".toList := by
    refine .rel _ _ ?_
    rw [hlines, hcomment]
    refine .comment [] _ hfield ?_ Text.allBlank_nil _
    rintro ⟨name, value, hitem⟩
    cases hitem
  have hspec := readMessages_ignores_layout hread
  rcases hspec.1 _ hsame with ⟨others, hothers, hbare, -⟩
  refine ⟨messages, hread, ⟨others, hothers, hbare⟩, ?_⟩
  exact hspec.2 _ ["int32 a".toList] [] "string S=v".toList [' '] ['1'] "S" "v" hconstant
    (List.forall_mem_singleton.mpr (by decide)) (by decide +kernel) (by decide +kernel)

end Definition

end RosInterface
