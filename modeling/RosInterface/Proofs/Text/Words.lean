import RosInterface.Proofs.Text.Blanks

namespace RosInterface.Text

/-! # Words

The words of a text are what lies between its blanks, and a text falls into the words on either side
of any blank. Everything else follows from that: words that are joined by spaces are found again, so
that a text in normal form is its own normal form (`normalize_normalize`).
-/

variable {text : List Char}

/-- No word reaches across a blank. -/
theorem words_append_cons {c : Char} (hc : isBlank c = true) (front back : List Char) :
    words (front ++ c :: back) = words front ++ words back := by
  rw [words, pieces_append_cons isBlank front hc, List.filter_append, words, words]

theorem ne_nil_of_mem_words {word : List Char} (hword : word ∈ words text) : word ≠ [] := by
  have hkept := (List.mem_filter.mp hword).2
  simpa using hkept

theorem isBlank_of_mem_words {word : List Char} (hword : word ∈ words text) :
    ∀ c ∈ word, isBlank c = false := by
  intro c hc
  exact (mem_of_mem_piece (List.mem_filter.mp hword).1 hc).2

/-- A text without blanks is a single word, unless it is empty. -/
theorem words_eq_singleton (hne : text ≠ []) (htext : ∀ c ∈ text, isBlank c = false) :
    words text = [text] := by
  rw [words, pieces_eq_splitOnP, List.splitOnP_eq_singleton htext]
  exact List.filter_cons_of_pos (by simpa using hne)

/-- The words hold all that is no blank, in order. -/
theorem flatten_words (text : List Char) : (words text).flatten = text.filter (!isBlank ·) := by
  rw [words, List.flatten_filter_not_isEmpty, flatten_pieces]

theorem words_eq_nil_iff : words text = [] ↔ AllBlank text := by
  have hflatten : (words text).flatten = [] ↔ words text = [] := by
    rw [List.flatten_eq_nil_iff]
    constructor
    · intro hnil
      exact List.eq_nil_iff_forall_not_mem.mpr fun word hword =>
        ne_nil_of_mem_words hword (hnil word hword)
    · intro hnone word hword
      rw [hnone] at hword
      cases hword
  rw [← hflatten, flatten_words, List.filter_eq_nil_iff, AllBlank]
  simp

/-- Words that are joined by spaces are the words of the text that they make up. -/
theorem words_intercalate {parts : List (List Char)}
    (hparts : ∀ part ∈ parts, part ≠ [] ∧ ∀ c ∈ part, isBlank c = false) :
    words ([' '].intercalate parts) = parts := by
  induction parts with
  | nil => rfl
  | cons part rest ih =>
    rw [List.forall_mem_cons] at hparts
    have hpart := words_eq_singleton hparts.1.1 hparts.1.2
    cases rest with
    | nil => rw [List.intercalate_singleton, hpart]
    | cons next others =>
      rw [List.intercalate_cons_cons, List.append_assoc, List.singleton_append,
        words_append_cons (by decide), hpart, ih hparts.2]
      rfl

theorem words_normalize (text : List Char) : words (normalize text) = words text :=
  words_intercalate fun _ hword => ⟨ne_nil_of_mem_words hword, isBlank_of_mem_words hword⟩

theorem normalize_normalize (text : List Char) : normalize (normalize text) = normalize text := by
  rw [normalize, words_normalize, normalize]

theorem normalize_eq_nil_iff : normalize text = [] ↔ AllBlank text := by
  rw [← words_eq_nil_iff, ← words_normalize text]
  constructor
  · intro hnil
    rw [hnil]
    rfl
  · intro hnone
    rw [← normalize_normalize, normalize, hnone]
    rfl

end RosInterface.Text
