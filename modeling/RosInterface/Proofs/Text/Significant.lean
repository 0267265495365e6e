import Mathlib.Data.List.Induction
import RosInterface.Text.Lines

namespace RosInterface.Text

/-! # Significant lines

Definitions are read line by line, and a line counts without the blanks at its ends. The significant
lines of a text are what remains when empty lines are left out as well.

There are several ways from a text to lines and back: `lines` takes carriage returns away, texts are
joined from lines, and blanks at their end are dropped. None of them changes the significant lines,
which is why reading the joined text of some lines is as good as reading the lines.
-/

/-! ## Blanks at the end -/

theorem dropEnd_concat (p : Char → Bool) (text : List Char) (c : Char) :
    dropEnd p (text ++ [c]) = if p c then dropEnd p text else text ++ [c] := by
  induction text with
  | nil => simp [dropEnd]
  | cons first rest ih =>
    rw [List.cons_append, dropEnd, ih]
    cases hc : p c with
    | true => rfl
    | false => cases rest <;> rfl

theorem trimEnd_concat {text : List Char} {c : Char} (hblank : isBlank c = true) :
    trimEnd (text ++ [c]) = trimEnd text := by
  unfold trimEnd
  rw [dropEnd_concat, if_pos hblank]

/-- A blank behind a text is trimmed with the others. -/
theorem trim_concat {text : List Char} {c : Char} (hblank : isBlank c = true) :
    trim (text ++ [c]) = trim text := by
  unfold trim trimStart dropStart
  rw [List.dropWhile_append]
  split
  · rename_i hnone
    rw [List.isEmpty_iff] at hnone
    simp [hnone, hblank]
  · exact trimEnd_concat hblank

/-! ## Lines -/

theorem pieces_eq_splitOnP (p : Char → Bool) (text : List Char) :
    pieces p text = text.splitOnP p := by
  induction text with
  | nil => rfl
  | cons c rest ih =>
    rw [pieces, ih, List.splitOnP_cons_eq_if_modifyHead]
    split
    · rfl
    · cases hpieces : rest.splitOnP p with
      | nil => exact absurd hpieces (List.splitOnP_ne_nil p rest)
      | cons first others => rfl

theorem lines_eq (text : List Char) : lines text = closeLines (text.splitOn '\n') := by
  unfold lines
  rw [pieces_eq_splitOnP]
  rfl

theorem not_mem_of_mem_splitOn {separator : Char} {text piece : List Char}
    (hpiece : piece ∈ text.splitOn separator) : separator ∉ piece := by
  induction text generalizing piece with
  | nil =>
    rw [List.splitOn_nil, List.mem_singleton] at hpiece
    simp [hpiece]
  | cons c rest ih =>
    rw [List.splitOn_cons_eq_if_modifyHead] at hpiece
    split at hpiece
    · rcases List.mem_cons.mp hpiece with rfl | hpiece
      · simp
      · exact ih hpiece
    · rename_i hother
      cases hpieces : rest.splitOn separator with
      | nil => exact absurd hpieces (List.splitOn_ne_nil separator rest)
      | cons first others =>
        rw [hpieces, List.modifyHead_cons, List.mem_cons] at hpiece
        rcases hpiece with rfl | hpiece
        · have hfirst : separator ∉ first := ih (hpieces ▸ List.mem_cons_self)
          have hne : separator ≠ c := fun heq => hother (beq_iff_eq.mpr heq.symm)
          exact List.not_mem_cons_of_ne_of_not_mem hne hfirst
        · exact ih (hpieces ▸ List.mem_cons_of_mem first hpiece)

/-- Lines that end in line feeds are the lines of the text that they make up, but for their carriage
returns. -/
theorem lines_flatMap {parts : List (List Char)} (hparts : ∀ part ∈ parts, '\n' ∉ part) :
    lines (parts.flatMap (· ++ ['\n'])) = parts.map dropReturn := by
  induction parts with
  | nil => rfl
  | cons part rest ih =>
    rw [List.forall_mem_cons] at hparts
    have hrest := ih hparts.2
    rw [lines_eq] at hrest ⊢
    rw [List.flatMap_cons, List.append_assoc, List.singleton_append, List.splitOn_append_cons_self,
      List.splitOn_eq_singleton hparts.1, List.singleton_append]
    cases hpieces : (rest.flatMap (· ++ ['\n'])).splitOn '\n' with
    | nil => exact absurd hpieces (List.splitOn_ne_nil _ _)
    | cons first others =>
      rw [hpieces] at hrest
      rw [closeLines, hrest, List.map_cons]
      simp

/-- A line differs from the same line with its ending by at most one carriage return. -/
theorem dropReturn_spec (line : List Char) :
    dropReturn line = line ∨ dropReturn line ++ ['\r'] = line := by
  fun_induction dropReturn line with
  | case1 => exact .inl rfl
  | case2 => exact .inr rfl
  | case3 c rest _ ih =>
    rcases ih with hsame | hreturn
    · exact .inl (congrArg (c :: ·) hsame)
    · exact .inr (congrArg (c :: ·) hreturn)

theorem trim_dropReturn (line : List Char) : trim (dropReturn line) = trim line := by
  rcases dropReturn_spec line with hsame | hreturn
  · rw [hsame]
  · rw [← trim_concat (by decide : isBlank '\r' = true), hreturn]

/-- Lines have no line feed in them. -/
theorem newline_not_mem_closeLines {pieces : List (List Char)}
    (hpieces : ∀ piece ∈ pieces, '\n' ∉ piece) : ∀ line ∈ closeLines pieces, '\n' ∉ line := by
  fun_induction closeLines pieces with
  | case1 => simp
  | case2 last hempty => simp
  | case3 last hsome => exact hpieces
  | case4 piece others _ ih =>
    rw [List.forall_mem_cons] at hpieces ⊢
    refine ⟨fun hmem => hpieces.1 ?_, ih hpieces.2⟩
    rcases dropReturn_spec piece with hsame | hreturn
    · rwa [hsame] at hmem
    · rw [← hreturn]
      exact List.mem_append_left _ hmem

theorem newline_not_mem_lines {text line : List Char} (hline : line ∈ lines text) :
    '\n' ∉ line := by
  rw [lines_eq] at hline
  exact newline_not_mem_closeLines (fun _ => not_mem_of_mem_splitOn) line hline

/-! ## Significant lines -/

/-- The lines that are not empty without their outer blanks. -/
def significant (lines : List (List Char)) : List (List Char) :=
  (lines.map trim).filter (!·.isEmpty)

theorem significant_append (front back : List (List Char)) :
    significant (front ++ back) = significant front ++ significant back := by
  unfold significant
  rw [List.map_append, List.filter_append]

theorem significant_cons (line : List Char) (others : List (List Char)) :
    significant (line :: others) = significant [line] ++ significant others :=
  significant_append [line] others

/-- Only what is left of a line when it is trimmed counts. -/
theorem significant_congr {line other : List Char} (htrim : trim line = trim other) :
    significant [line] = significant [other] := by
  unfold significant
  rw [List.map_singleton, htrim, List.map_singleton]

theorem mem_significant {lines : List (List Char)} {text : List Char} :
    text ∈ significant lines ↔ (∃ line ∈ lines, trim line = text) ∧ text ≠ [] := by
  simp [significant]

/-- Carriage returns in front of line feeds are of no significance. -/
theorem significant_closeLines (pieces : List (List Char)) :
    significant (closeLines pieces) = significant pieces := by
  fun_induction closeLines pieces with
  | case1 => rfl
  | case2 last hempty =>
    rw [List.isEmpty_iff.mp hempty]
    rfl
  | case3 last hsome => rfl
  | case4 piece others _ ih =>
    rw [significant_cons, ih, significant_congr (trim_dropReturn piece), ← significant_cons]

theorem significant_lines (text : List Char) :
    significant (lines text) = significant (text.splitOn '\n') := by
  rw [lines_eq, significant_closeLines]

/-- What is put behind a text belongs to its last line. -/
theorem splitOn_concat {separator c : Char} (hc : c ≠ separator) (text : List Char) :
    ∃ front last, text.splitOn separator = front ++ [last] ∧
      (text ++ [c]).splitOn separator = front ++ [last ++ [c]] := by
  have hother : (c == separator) = false := by simpa using hc
  induction text with
  | nil => exact ⟨[], [], rfl, by simp [List.splitOn_cons_eq_if_modifyHead, hother]⟩
  | cons first rest ih =>
    rcases ih with ⟨front, last, hrest, hgrown⟩
    rw [List.cons_append, List.splitOn_cons_eq_if_modifyHead, List.splitOn_cons_eq_if_modifyHead,
      hrest, hgrown]
    split
    · exact ⟨[] :: front, last, rfl, rfl⟩
    · cases front with
      | nil => exact ⟨[], first :: last, rfl, rfl⟩
      | cons head others => exact ⟨(first :: head) :: others, last, rfl, rfl⟩

theorem significant_concat {c : Char} (hblank : isBlank c = true) (text : List Char) :
    significant ((text ++ [c]).splitOn '\n') = significant (text.splitOn '\n') := by
  by_cases hc : c = '\n'
  · -- A line feed opens one more line, which is empty.
    rw [hc, List.splitOn_append_cons_self, significant_append, List.splitOn_nil]
    exact List.append_nil _
  · rcases splitOn_concat hc text with ⟨front, last, hsplit, hgrown⟩
    rw [hsplit, hgrown, significant_append, significant_append,
      significant_congr (trim_concat hblank)]

/-- Blanks at the end of a text are of no significance, line feeds included. -/
theorem significant_trimEnd (text : List Char) :
    significant ((trimEnd text).splitOn '\n') = significant (text.splitOn '\n') := by
  induction text using List.reverseRecOn with
  | nil => rfl
  | append_singleton text c ih =>
    cases hblank : isBlank c with
    | true => rw [trimEnd_concat hblank, ih, significant_concat hblank]
    | false =>
      unfold trimEnd
      rw [dropEnd_concat, hblank, if_neg Bool.false_ne_true]

/-- Lines that are joined to a text, and the text that is read as lines again, have the same
significance. -/
theorem significant_join {lines : List (List Char)} (hlines : ∀ line ∈ lines, '\n' ∉ line) :
    significant ((trimEnd (['\n'].intercalate lines)).splitOn '\n') = significant lines := by
  rw [significant_trimEnd]
  by_cases hnone : lines = []
  · rw [hnone]
    rfl
  · rw [List.splitOn_intercalate '\n' hlines hnone]

end RosInterface.Text
