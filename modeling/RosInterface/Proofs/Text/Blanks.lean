import RosInterface.MessageType.Grammar
import RosInterface.Proofs.Text.Pieces

namespace RosInterface.Text

/-! # Blanks at the ends of a text

Every text is what trimming leaves of it between two runs of blanks, and a text between two such runs
is trimmed to the same. What is trimmed starts and ends with characters that stay, so a character
that is no blank is never lost.

The characters of names are among those that stay.
-/

/-- Nothing but blanks, perhaps not even these. -/
def AllBlank (text : List Char) : Prop :=
  ∀ c ∈ text, isBlank c = true

theorem allBlank_nil : AllBlank [] := by
  intro c hc
  cases hc

theorem AllBlank.append {front back : List Char} (hfront : AllBlank front) (hback : AllBlank back) :
    AllBlank (front ++ back) :=
  List.forall_mem_append.mpr ⟨hfront, hback⟩

theorem AllBlank.not_mem {text : List Char} (h : AllBlank text) {c : Char}
    (hc : isBlank c = false) : c ∉ text := by
  intro hmem
  rw [h c hmem] at hc
  cases hc

/-! ## What is dropped -/

/-- What is dropped at the end of a text is all of one class. -/
theorem exists_dropEnd (p : Char → Bool) (text : List Char) :
    ∃ gap, (∀ c ∈ gap, p c = true) ∧ text = dropEnd p text ++ gap := by
  induction text using List.reverseRecOn with
  | nil => exact ⟨[], by simp, rfl⟩
  | append_singleton text c ih =>
    rw [dropEnd_concat]
    cases hc : p c with
    | false => exact ⟨[], by simp, by simp⟩
    | true =>
      rcases ih with ⟨gap, hgap, htext⟩
      refine ⟨gap ++ [c], ?_, ?_⟩
      · rw [List.forall_mem_append, List.forall_mem_singleton]
        exact ⟨hgap, hc⟩
      · rw [if_pos rfl, ← List.append_assoc, ← htext]

/-- Whatever of the class stands behind a text is dropped with its own end. -/
theorem dropEnd_append_of_forall {p : Char → Bool} (text : List Char) {gap : List Char}
    (hgap : ∀ c ∈ gap, p c = true) : dropEnd p (text ++ gap) = dropEnd p text := by
  induction gap using List.reverseRecOn with
  | nil => rw [List.append_nil]
  | append_singleton gap c ih =>
    rw [List.forall_mem_append, List.forall_mem_singleton] at hgap
    rw [← List.append_assoc, dropEnd_concat, if_pos hgap.2, ih hgap.1]

/-- Nothing is dropped in front of a character outside the class. -/
theorem dropEnd_append_cons {p : Char → Bool} {c : Char} (hc : p c = false)
    (front back : List Char) : dropEnd p (front ++ c :: back) = front ++ c :: dropEnd p back := by
  induction front with
  | nil => exact dropEnd_cons hc back
  | cons first front ih =>
    rw [List.cons_append, dropEnd, ih]
    cases front with
    | nil => rfl
    | cons second front => rfl

/-- Of two texts, only the second one is trimmed at its end, unless it is blank. -/
theorem trimEnd_append {back : List Char} (hback : ¬ AllBlank back) (front : List Char) :
    trimEnd (front ++ back) = front ++ trimEnd back := by
  simp only [AllBlank, not_forall, Bool.not_eq_true] at hback
  rcases hback with ⟨c, hc, hkept⟩
  rcases List.append_of_mem hc with ⟨before, after, rfl⟩
  unfold trimEnd
  rw [← List.append_assoc, dropEnd_append_cons hkept, dropEnd_append_cons hkept,
    List.append_assoc]

/-! ## Trimming -/

/-- Blanks in front of a text and behind it are trimmed with its own ones. -/
theorem trim_surround {lead trail : List Char} (hlead : AllBlank lead) (htrail : AllBlank trail)
    (text : List Char) : trim (lead ++ (text ++ trail)) = trim text := by
  have hstart : trim (lead ++ (text ++ trail)) = trim (text ++ trail) := by
    unfold trim trimStart dropStart
    rw [List.dropWhile_append_of_pos hlead]
  rw [hstart]
  clear hstart
  induction trail using List.reverseRecOn with
  | nil => rw [List.append_nil]
  | append_singleton trail c ih =>
    rw [AllBlank, List.forall_mem_append, List.forall_mem_singleton] at htrail
    rw [← List.append_assoc, trim_concat htrail.2, ih htrail.1]

theorem trim_prepend {lead : List Char} (hlead : AllBlank lead) (text : List Char) :
    trim (lead ++ text) = trim text := by
  have hsame := trim_surround hlead allBlank_nil text
  rwa [List.append_nil] at hsame

theorem trim_append {trail : List Char} (htrail : AllBlank trail) (text : List Char) :
    trim (text ++ trail) = trim text :=
  trim_surround allBlank_nil htrail text

theorem exists_trimStart (text : List Char) : ∃ gap, AllBlank gap ∧ text = gap ++ trimStart text :=
  ⟨text.takeWhile isBlank, fun c hc => List.all_eq_true.mp List.all_takeWhile c hc,
    (List.takeWhile_append_dropWhile).symm⟩

/-- Trimming leaves a text without the blanks in front of it and behind it. -/
theorem exists_margins (text : List Char) :
    ∃ lead trail, AllBlank lead ∧ AllBlank trail ∧ text = lead ++ (trim text ++ trail) := by
  rcases exists_trimStart text with ⟨lead, hlead, hstart⟩
  rcases exists_dropEnd isBlank (trimStart text) with ⟨trail, htrail, hend⟩
  exact ⟨lead, trail, hlead, htrail, hstart.trans (congrArg (lead ++ ·) hend)⟩

theorem trim_trim (text : List Char) : trim (trim text) = trim text := by
  rcases exists_margins text with ⟨lead, trail, hlead, htrail, htext⟩
  have hsame := trim_surround hlead htrail (trim text)
  rw [← htext] at hsame
  exact hsame.symm

theorem trim_trimEnd (text : List Char) : trim (trimEnd text) = trim text := by
  rcases exists_dropEnd isBlank text with ⟨gap, hgap, htext⟩
  conv => rhs; rw [htext]
  exact (trim_append hgap _).symm

theorem trim_eq_nil_iff {text : List Char} : trim text = [] ↔ AllBlank text := by
  constructor
  · intro hnil
    rcases exists_margins text with ⟨lead, trail, hlead, htrail, htext⟩
    rw [hnil, List.nil_append] at htext
    rw [htext]
    exact hlead.append htrail
  · intro hblank
    have hnone := trim_prepend hblank []
    rwa [List.append_nil] at hnone

/-- A character that is no blank outlives trimming. -/
theorem mem_trim {text : List Char} {c : Char} (hc : isBlank c = false) (hmem : c ∈ text) :
    c ∈ trim text := by
  rcases exists_margins text with ⟨lead, trail, hlead, htrail, htext⟩
  rw [htext, List.mem_append, List.mem_append] at hmem
  exact (hmem.resolve_left (hlead.not_mem hc)).resolve_right (htrail.not_mem hc)

/-- A text that starts with no blank is only trimmed at its end. -/
theorem trim_cons {c : Char} (hc : isBlank c = false) (rest : List Char) :
    trim (c :: rest) = c :: trimEnd rest := by
  unfold trim trimStart dropStart
  rw [List.dropWhile_cons_of_neg (by simp [hc]), trimEnd, dropEnd_cons hc]
  rfl

/-- What is trimmed starts with no blank. -/
theorem isBlank_head_trim {text rest : List Char} {c : Char} (htrim : trim text = c :: rest) :
    isBlank c = false := by
  cases hblank : isBlank c with
  | false => rfl
  | true =>
    have hshorter : trim text = trim rest := by
      rw [← trim_trim, htrim]
      unfold trim trimStart dropStart
      rw [List.dropWhile_cons_of_pos hblank]
    -- Trimming the rest would have to give a longer text.
    have hlength : (trim rest).length ≤ rest.length := by
      rcases exists_margins rest with ⟨lead, trail, -, -, hrest⟩
      conv => rhs; rw [hrest]
      simp only [List.length_append]
      omega
    rw [← hshorter, htrim, List.length_cons] at hlength
    omega

/-- What is put behind a text is put behind what is left when it is trimmed, with blanks between
them, unless it is blank itself. -/
theorem exists_trim_append_cons {c : Char} (hc : isBlank c = false) (text rest : List Char) :
    ∃ gap, AllBlank gap ∧
      trim (text ++ c :: rest) = trim text ++ (gap ++ c :: trimEnd rest) := by
  rcases exists_margins text with ⟨lead, trail, hlead, htrail, htext⟩
  cases htrim : trim text with
  | nil =>
    have hblank := trim_prepend (trim_eq_nil_iff.mp htrim) (c :: rest)
    rw [trim_cons hc] at hblank
    exact ⟨[], allBlank_nil, hblank⟩
  | cons first kept =>
    have hstart := trim_prepend hlead (first :: (kept ++ trail ++ c :: rest))
    have hend : trimEnd (kept ++ trail ++ c :: rest) = kept ++ trail ++ c :: trimEnd rest :=
      dropEnd_append_cons hc _ _
    rw [trim_cons (isBlank_head_trim htrim), hend] at hstart
    refine ⟨trail, htrail, ?_⟩
    conv => lhs; rw [htext, htrim]
    simpa only [List.append_assoc, List.cons_append] using hstart

/-- Nothing is trimmed from a text without blanks. -/
theorem trim_eq_self {text : List Char} (htext : ∀ c ∈ text, isBlank c = false) :
    trim text = text := by
  rcases exists_margins text with ⟨lead, trail, hlead, htrail, hsplit⟩
  have hnone : ∀ gap, AllBlank gap → gap ⊆ text → gap = [] := by
    intro gap hgap hsubset
    refine List.eq_nil_iff_forall_not_mem.mpr fun c hc => ?_
    exact hgap.not_mem (htext c (hsubset hc)) hc
  have hleadNone := hnone lead hlead fun c hc => hsplit ▸ List.mem_append_left _ hc
  have htrailNone := hnone trail htrail fun c hc =>
    hsplit ▸ List.mem_append_right _ (List.mem_append_right _ hc)
  rw [hleadNone, htrailNone, List.append_nil, List.nil_append] at hsplit
  exact hsplit.symm

/-! ## Names -/

/-- The characters of names are ASCII, and none of them is blank. -/
theorem isBlank_of_isNameChar {c : Char} (hname : isNameChar c = true) : isBlank c = false := by
  have hall : ∀ n < 0x80, isNameChar (Char.ofNat n) = true →
      isBlank (Char.ofNat n) = false := by decide +kernel
  have hascii : c.toNat < 0x80 := by
    simp only [isNameChar, isLetter, Char.isDigit, Bool.or_eq_true, Bool.and_eq_true,
      decide_eq_true_eq, beq_iff_eq, Char.le_def, UInt32.le_iff_toNat_le] at hname
    rcases hname with ((⟨-, hle⟩ | ⟨-, hle⟩) | ⟨-, hle⟩) | rfl
    · exact Nat.lt_of_le_of_lt hle (by decide)
    · exact Nat.lt_of_le_of_lt hle (by decide)
    · exact Nat.lt_of_le_of_lt hle (by decide)
    · decide
  have hc := hall c.toNat hascii
  rw [Char.ofNat_toNat] at hc
  exact hc hname

end RosInterface.Text
