import RosInterface.Proofs.Definition.Rereading

namespace RosInterface

/-! # Files line by line

A file is cut into sections before its lines are read, and each section numbers its lines from a
number of its own. Seen from outside, none of this matters:

* the sections hold the lines between the separators (`map_lines_ofLines`), with the numbers that
  these lines have in the file (`flatMap_numberedLines_ofText`);
* reading the sections fails where reading all those lines one after the other does
  (`mapM_eq_error_iff_flatMap`).

So the error of a file with the right number of separators is that of its first bad line.
-/

namespace MessageKind

/-- How many separators a file of a kind has. -/
def separatorCount : MessageKind → Nat
  | message => 0
  | service => 1
  | action => 2

theorem length_sectionParts (kind : MessageKind) :
    kind.sectionParts.length = kind.separatorCount + 1 := by
  cases kind <;> rfl

end MessageKind

/-! ## Lists of outcomes -/

/-- What a computation that cannot fail does behind another one does not matter to its errors. -/
theorem bind_pure_eq_error_iff {ε α β : Type} {outcome : Except ε α} {last : α → β} {error : ε} :
    (outcome >>= fun value => pure (last value)) = .error error ↔ outcome = .error error := by
  rw [bind_eq_error_iff]
  simp [pure, Except.pure]

/-- Going through lists in turn fails as going through all their members at once does. -/
theorem mapM_eq_error_iff_flatMap {ε α β γ δ : Type} {members : List α} {parts : α → List γ}
    {step : α → Except ε β} {read : γ → Except ε δ}
    (hstep : ∀ member error,
      step member = .error error ↔ (parts member).mapM read = .error error) {error : ε} :
    members.mapM step = .error error ↔ (members.flatMap parts).mapM read = .error error := by
  -- An outcome that is no error is a value, so the two kinds of steps also succeed together.
  have hsucceeds : ∀ member, (∃ value, step member = .ok value) ↔
      ∃ values, (parts member).mapM read = .ok values := by
    intro member
    have hfails := hstep member
    cases hfirst : step member with
    | error failure => simp [(hfails failure).mp hfirst]
    | ok value =>
      cases hread : (parts member).mapM read with
      | error failure =>
        rw [(hfails failure).mpr hread] at hfirst
        cases hfirst
      | ok values => simp
  induction members with
  | nil => simp [pure, Except.pure]
  | cons first rest ih =>
    rw [List.mapM_cons, List.flatMap_cons, List.mapM_append, bind_eq_error_iff, bind_eq_error_iff,
      hstep]
    simp only [bind_pure_eq_error_iff, ih, exists_and_right, hsucceeds]

namespace Section

/-! ## Lines of sections -/

/-- The first section starts where it is told to. -/
theorem exists_ofLines_eq_cons (first next : Nat) (lines : List String) :
    ∃ opening others, ofLines first next lines = ⟨first, opening⟩ :: others := by
  induction lines generalizing next with
  | nil => exact ⟨[], [], rfl⟩
  | cons line rest ih =>
    rw [ofLines]
    split
    · exact ⟨_, _, rfl⟩
    · rcases ih (next + 1) with ⟨opening, others, hrest⟩
      rw [hrest]
      exact ⟨_, _, rfl⟩

/-- The sections hold what stands between the separators. -/
theorem map_lines_ofLines (first next : Nat) (lines : List String) :
    (ofLines first next lines).map (·.lines) = lines.splitOnP isSeparator := by
  induction lines generalizing first next with
  | nil => rfl
  | cons line rest ih =>
    rw [ofLines, List.splitOnP_cons_eq_if_modifyHead, ← ih first (next + 1)]
    split
    · rw [List.map_cons, ih, ih]
    · rcases exists_ofLines_eq_cons first (next + 1) rest with ⟨opening, others, hrest⟩
      rw [hrest]
      rfl

theorem length_ofLines (first next : Nat) (lines : List String) :
    (ofLines first next lines).length = lines.countP isSeparator + 1 := by
  induction lines generalizing first next with
  | nil => rfl
  | cons line rest ih =>
    rw [ofLines, List.countP_cons]
    split
    · rw [List.length_cons, ih]
    · rcases exists_ofLines_eq_cons first (next + 1) rest with ⟨opening, others, hrest⟩
      have hlength := ih first (next + 1)
      rw [hrest] at hlength ⊢
      exact hlength

/-- The numbers of the lines of all sections are those that the lines have in the file. Those of the
first section count from `next`, where its remaining lines start. -/
theorem numberedLines_ofLines (first next : Nat) (lines : List String) :
    ∃ opening others, ofLines first next lines = ⟨first, opening⟩ :: others ∧
      opening.zipIdx next ++ others.flatMap numberedLines =
        (lines.zipIdx next).filter fun entry => !isSeparator entry.1 := by
  -- `next` counts every line, while `first` only changes behind a separator.
  induction lines generalizing first next with
  | nil => exact ⟨[], [], rfl, rfl⟩
  | cons line rest ih =>
    rw [ofLines, List.zipIdx_cons]
    cases hseparator : isSeparator line with
    | true =>
      rcases ih (next + 1) (next + 1) with ⟨opening, others, hrest, hnumbers⟩
      refine ⟨[], ⟨next + 1, opening⟩ :: others, by rw [if_pos rfl, hrest], ?_⟩
      rw [List.filter_cons_of_neg (by simp [hseparator]), ← hnumbers]
      rfl
    | false =>
      rcases ih first (next + 1) with ⟨opening, others, hrest, hnumbers⟩
      refine ⟨line :: opening, others, by rw [if_neg Bool.false_ne_true, hrest]; rfl, ?_⟩
      rw [List.filter_cons_of_pos (by simp [hseparator]), ← hnumbers]
      rfl

/-- The lines of a text, as they are numbered from one. -/
def linesOf (text : String) : List String :=
  (Text.lines text.toList).map String.ofList

theorem flatMap_numberedLines_ofText (text : String) :
    (ofText text).flatMap numberedLines =
      ((linesOf text).zipIdx 1).filter fun entry => !isSeparator entry.1 := by
  rcases numberedLines_ofLines 1 1 (linesOf text) with ⟨opening, others, hsections, hnumbers⟩
  rw [← hnumbers, ofText, ← linesOf, hsections]
  rfl

end Section

/-! ## Lines -/

namespace Definition

open Section (isSeparator linesOf)

variable {package file text : String}

/-- A line is bad if it is no separator, no remark and no declaration. -/
structure IsBad (package line : String) : Prop where
  separator : isSeparator line = false
  remark : ¬ Declaration.IsRemark line.toList
  declares : ∀ item, ¬ Declaration.Declares package line.toList item

theorem isBad_iff {line : String} :
    IsBad package line ↔
      isSeparator line = false ∧ ∃ fault, Declaration.ofLine package line = .error fault := by
  constructor
  · rintro ⟨separator, remark, declares⟩
    refine ⟨separator, ?_⟩
    cases hread : Declaration.ofLine package line with
    | error fault => exact ⟨fault, rfl⟩
    | ok found =>
      cases found with
      | none => exact absurd (Declaration.ofLine_eq_none_iff.mp hread) remark
      | some item => exact absurd (Declaration.ofLine_eq_some_iff.mp hread) (declares item)
  · rintro ⟨separator, fault, hread⟩
    refine ⟨separator, fun remark => ?_, fun item declares => ?_⟩
    · rw [Declaration.ofLine_eq_none_iff.mpr remark] at hread
      cases hread
    · rw [declares.ofLine_eq] at hread
      cases hread

/-- The declarations of lines that are not bad, in order. -/
inductive Declarations (package : String) : List String → List Item → Prop where
  | nil : Declarations package [] []
  | remark {line : String} {rest : List String} {items : List Item}
      (remark : Declaration.IsRemark line.toList) (others : Declarations package rest items) :
      Declarations package (line :: rest) items
  | item {line : String} {rest : List String} {item : Item} {items : List Item}
      (declares : Declaration.Declares package line.toList item)
      (others : Declarations package rest items) :
      Declarations package (line :: rest) (item :: items)

theorem Declarations.append {front back : List String} {items others : List Item}
    (hfront : Declarations package front items) (hback : Declarations package back others) :
    Declarations package (front ++ back) (items ++ others) := by
  induction hfront with
  | nil => exact hback
  | remark remark _ ih => exact .remark remark ih
  | item declares _ ih => exact .item declares ih

theorem Declarations.flatten {parts : List (List String)} {items : List (List Item)}
    (h : List.Forall₂ (Declarations package) parts items) :
    Declarations package parts.flatten items.flatten := by
  induction h with
  | nil => exact .nil
  | cons hfirst _ ih => exact hfirst.append ih

/-- Numbered lines that are read without an error have the declarations that are read. -/
theorem declarations_of_mapM {entries : List (String × Nat)} {found : List (Option Item)}
    (hread : entries.mapM (readLine package file) = .ok found) :
    Declarations package (entries.map Prod.fst) (found.filterMap id) := by
  induction entries generalizing found with
  | nil =>
    cases hread
    exact .nil
  | cons first rest ih =>
    rcases mapM_cons_eq_ok_iff.mp hread with ⟨head, tail, hfirst, hrest, rfl⟩
    rw [readLine, mapError_eq_ok_iff] at hfirst
    have hothers := ih hrest
    cases head with
    | none => exact .remark (Declaration.ofLine_eq_none_iff.mp hfirst) hothers
    | some item => exact .item (Declaration.ofLine_eq_some_iff.mp hfirst) hothers

theorem declarations_of_readSection {part : Section} {descriptor : Descriptor}
    (hread : readSection package file part = .ok descriptor) :
    Declarations package part.lines descriptor.items := by
  rcases bind_eq_ok_iff.mp hread with ⟨found, hfound, hdescriptor⟩
  cases hdescriptor
  have hlines := declarations_of_mapM hfound
  rwa [Section.numberedLines, List.zipIdx_map_fst] at hlines

/-- Reading the lines between the separators of a file fails at the first bad line. -/
theorem readLines_eq_error_iff {lines : List String} {first : Nat} {error : DefinitionError} :
    ((lines.zipIdx first).filter fun entry => !isSeparator entry.1).mapM (readLine package file) =
        .error error ↔
      ∃ front line back fault, lines = front ++ line :: back ∧
        (∀ other ∈ front, ¬ IsBad package other) ∧ IsBad package line ∧
        Declaration.ofLine package line = .error fault ∧
        error = ⟨package, file, first + front.length, fault.message⟩ := by
  have hgood : ∀ {other : String × Nat}, isSeparator other.1 = false →
      ((∃ found, readLine package file other = .ok found) ↔ ¬ IsBad package other.1) := by
    intro other hother
    rw [isBad_iff, and_iff_right hother]
    simp only [readLine, mapError_eq_ok_iff]
    cases Declaration.ofLine package other.1 <;> simp
  constructor
  · intro hfails
    rcases mapM_eq_error_iff.mp hfails with ⟨kept, ⟨line, number⟩, others, hsplit, hkept, hline⟩
    -- What is kept of the entries is taken back to the lines, where the number is a position.
    rcases List.filter_eq_append_iff.mp hsplit with ⟨before, rest, hentries, rfl, hrest⟩
    rcases List.filter_eq_cons_iff.mp hrest with ⟨skipped, after, rfl, hskipped, hseparator, -⟩
    rw [← List.append_assoc] at hentries
    rcases List.zipIdx_eq_append_iff.mp hentries with ⟨front, tail, rfl, hfront, htail⟩
    rcases List.zipIdx_eq_cons_iff.mp htail.symm with ⟨_, back, rfl, hentry, -⟩
    cases hentry
    rcases mapError_eq_error_iff.mp hline with ⟨fault, hfault, rfl⟩
    have hbad := isBad_iff.mpr ⟨by simpa using hseparator, fault, hfault⟩
    refine ⟨front, _, back, fault, rfl, fun other hother hotherBad => ?_, hbad, hfault, rfl⟩
    -- A bad line in front of this one would have been read before.
    rw [← List.zipIdx_map_fst first front, ← hfront] at hother
    rcases List.mem_map.mp hother with ⟨entry, hentry, rfl⟩
    have hkeep : (!isSeparator entry.1) = true := by simp [hotherBad.separator]
    rcases List.mem_append.mp hentry with hbefore | hskip
    · have hread := hkept entry (List.mem_filter.mpr ⟨hbefore, hkeep⟩)
      exact (hgood hotherBad.separator).mp hread hotherBad
    · exact hskipped entry hskip hkeep
  · rintro ⟨front, line, back, fault, rfl, hfront, hbad, hfault, rfl⟩
    rw [List.zipIdx_append, List.filter_append, List.zipIdx_cons,
      List.filter_cons_of_pos (by simp [hbad.separator])]
    refine mapM_eq_error_iff.mpr ⟨_, _, _, rfl, fun entry hentry => ?_, ?_⟩
    · rcases List.mem_filter.mp hentry with ⟨hmem, hseparator⟩
      exact (hgood (by simpa using hseparator)).mpr
        (hfront entry.1 (List.fst_mem_of_mem_zipIdx hmem))
    · rw [readLine, hfault]
      rfl

/-! ## Files -/

variable {file : MessageFile}

/-- A section is read as a message type unless one of its lines is in the way. -/
theorem readMessage_eq_error_iff {role : Option MessagePart} {part : Section}
    {error : DefinitionError} :
    readMessage package file role part = .error error ↔
      part.numberedLines.mapM (readLine package file.path.text) = .error error :=
  bind_pure_eq_error_iff.trans bind_pure_eq_error_iff

/-- A file with the right number of separators fails at its first bad line. -/
theorem readMessages_eq_error_iff
    (hcount : (linesOf text).countP isSeparator = file.kind.separatorCount)
    {error : DefinitionError} :
    readMessages package file text = .error error ↔
      ∃ front line back fault, linesOf text = front ++ line :: back ∧
        (∀ other ∈ front, ¬ IsBad package other) ∧ IsBad package line ∧
        Declaration.ofLine package line = .error fault ∧
        error = ⟨package, file.path.text, front.length + 1, fault.message⟩ := by
  have hlength : (Section.ofText text).length = file.kind.sectionParts.length := by
    rw [Section.ofText, Section.length_ofLines, ← linesOf, hcount,
      MessageKind.length_sectionParts]
  have hzip : (file.kind.sectionParts.zip (Section.ofText text)).flatMap
      (fun entry => entry.2.numberedLines) = (Section.ofText text).flatMap Section.numberedLines := by
    conv => rhs; rw [← List.map_snd_zip (Nat.le_of_eq hlength)]
    rw [List.flatMap_map]
  simp only [readMessages, if_pos hlength]
  rw [mapM_eq_error_iff_flatMap fun _ _ => readMessage_eq_error_iff, hzip,
    Section.flatMap_numberedLines_ofText, readLines_eq_error_iff]
  simp only [Nat.add_comm 1]

/-- The declarations of a file are those of the lines between its separators. -/
theorem declarations_of_readMessages {messages : List ParsedMessage}
    (hread : readMessages package file text = .ok messages) :
    List.Forall₂ (Declarations package) ((linesOf text).splitOnP isSeparator)
      (messages.map (·.descriptor.items)) := by
  simp only [readMessages] at hread
  split at hread
  · rename_i hlength
    have hlines : (linesOf text).splitOnP isSeparator =
        (file.kind.sectionParts.zip (Section.ofText text)).map fun entry => entry.2.lines := by
      rw [← Section.map_lines_ofLines 1 1]
      conv => lhs; rw [linesOf, ← Section.ofText, ← List.map_snd_zip (Nat.le_of_eq hlength)]
      rw [List.map_map]
      rfl
    rw [hlines, List.forall₂_map_left_iff, List.forall₂_map_right_iff]
    refine (forall₂_of_mapM_eq_ok hread).imp fun entry message hentry => ?_
    rcases bind_eq_ok_iff.mp hentry with ⟨descriptor, hdescriptor, hmessage⟩
    cases hmessage
    exact declarations_of_readSection hdescriptor
  · cases hread

theorem Declarations.not_isBad {lines : List String} {items : List Item}
    (h : Declarations package lines items) : ∀ line ∈ lines, ¬ IsBad package line := by
  induction h with
  | nil => simp
  | remark remark _ ih => exact List.forall_mem_cons.mpr ⟨fun hbad => hbad.remark remark, ih⟩
  | item declares _ ih => exact List.forall_mem_cons.mpr ⟨fun hbad => hbad.declares _ declares, ih⟩

/-- The declarations of all sections are those of all lines that are no separators. -/
theorem flat_declarations_of_readMessages {messages : List ParsedMessage}
    (hread : readMessages package file text = .ok messages) :
    Declarations package ((linesOf text).filter fun line => !isSeparator line)
      (messages.flatMap (·.descriptor.items)) := by
  rw [← Text.flatten_splitOnP]
  exact Declarations.flatten (declarations_of_readMessages hread)

/-- Where the number of separators is wrong, the error is one of the whole file. -/
theorem readMessages_of_count_ne
    (hcount : (linesOf text).countP isSeparator ≠ file.kind.separatorCount) :
    readMessages package file text = .error ⟨package, file.path.text, 0,
      sectionCountReason (file.kind.separatorCount + 1)
        ((linesOf text).countP isSeparator + 1)⟩ := by
  have hlength : (Section.ofText text).length = (linesOf text).countP isSeparator + 1 :=
    Section.length_ofLines 1 1 _
  simp only [readMessages, MessageKind.length_sectionParts, hlength]
  rw [if_neg fun hsame => hcount (Nat.succ.inj hsame)]

/-- A file with a wrong number of separators has an error in line zero. Any other file fails exactly
if it has a bad line, with the number of the first one and what is wrong there. Where nothing is
wrong, the sections have the declarations of the lines between the separators, so that all of them
together have the declarations of the file. -/
theorem readMessages_fails_at_first_bad_line (package : String) (file : MessageFile)
    (text : String) :
    ((linesOf text).countP isSeparator ≠ file.kind.separatorCount →
      readMessages package file text = .error ⟨package, file.path.text, 0,
        sectionCountReason (file.kind.separatorCount + 1)
          ((linesOf text).countP isSeparator + 1)⟩) ∧
    ((linesOf text).countP isSeparator = file.kind.separatorCount →
      ((∃ error, readMessages package file text = .error error) ↔
        ∃ line ∈ linesOf text, IsBad package line) ∧
      ∀ error, readMessages package file text = .error error ↔
        ∃ front line back fault, linesOf text = front ++ line :: back ∧
          (∀ other ∈ front, ¬ IsBad package other) ∧ IsBad package line ∧
          Declaration.ofLine package line = .error fault ∧
          error = ⟨package, file.path.text, front.length + 1, fault.message⟩) ∧
    ∀ messages, readMessages package file text = .ok messages →
      List.Forall₂ (Declarations package) ((linesOf text).splitOnP isSeparator)
        (messages.map (·.descriptor.items)) ∧
      Declarations package ((linesOf text).filter fun line => !isSeparator line)
        (messages.flatMap (·.descriptor.items)) := by
  refine ⟨readMessages_of_count_ne, fun hcount => ⟨?_, fun error => ?_⟩, fun messages hread => ?_⟩
  · constructor
    · rintro ⟨error, hfails⟩
      rcases (readMessages_eq_error_iff hcount).mp hfails with
        ⟨front, line, back, fault, hlines, -, hbad, -⟩
      exact ⟨line, hlines ▸ List.mem_append_right _ List.mem_cons_self, hbad⟩
    · rintro ⟨line, hline, hbad⟩
      cases hread : readMessages package file text with
      | error error => exact ⟨error, rfl⟩
      | ok messages =>
        have hkeep : (!isSeparator line) = true := by simp [hbad.separator]
        exact absurd hbad ((flat_declarations_of_readMessages hread).not_isBad line
          (List.mem_filter.mpr ⟨hline, hkeep⟩))
  · exact readMessages_eq_error_iff hcount
  · exact ⟨declarations_of_readMessages hread, flat_declarations_of_readMessages hread⟩

/-- A constant of an array type, in the second section of a service. -/
theorem readMessages_fails_at_array_constant :
    ∃ front line back, linesOf "int32 a\n---\r\n#\n byte[] C = 1\nint32" = front ++ line :: back ∧
      (∀ other ∈ front, ¬ IsBad "demo" other) ∧ IsBad "demo" line ∧
      readMessages "demo" ⟨⟨"Set.srv"⟩, .service⟩ "int32 a\n---\r\n#\n byte[] C = 1\nint32" =
        .error ⟨"demo", "Set.srv", 4, "constant C must have a built-in type, got byte[]"⟩ ∧
      front.length + 1 = 4 := by
  have hcount : (linesOf "int32 a\n---\r\n#\n byte[] C = 1\nint32").countP isSeparator =
      MessageKind.service.separatorCount := by decide +kernel
  have hfails : readMessages "demo" ⟨⟨"Set.srv"⟩, .service⟩
      "int32 a\n---\r\n#\n byte[] C = 1\nint32" =
        .error ⟨"demo", "Set.srv", 4, "constant C must have a built-in type, got byte[]"⟩ := by
    decide +kernel
  have hspec := (readMessages_fails_at_first_bad_line "demo" ⟨⟨"Set.srv"⟩, .service⟩
    "int32 a\n---\r\n#\n byte[] C = 1\nint32").2.1 hcount
  rcases (hspec.2 _).mp hfails with ⟨front, line, back, fault, hlines, hfront, hbad, -, herror⟩
  exact ⟨front, line, back, hlines, hfront, hbad, hfails,
    (congrArg DefinitionError.line herror).symm⟩

end Definition

end RosInterface
