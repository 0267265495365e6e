import Mathlib.Data.List.Basic
import RosInterface.Proofs.Text.Significant

namespace RosInterface.Text

/-! # Pieces of texts

Cutting a text at its separators loses the separators and nothing else, and what is dropped at the
ends of a text leaves a part of it. Cutting at the first separator only takes two halves apart that
were joined with it.
-/

/-- A text is cut at a separator. -/
theorem pieces_append_cons (p : Char → Bool) (front : List Char) {separator : Char}
    (hseparator : p separator = true) (back : List Char) :
    pieces p (front ++ separator :: back) = pieces p front ++ pieces p back := by
  rw [pieces_eq_splitOnP, pieces_eq_splitOnP, pieces_eq_splitOnP,
    List.splitOnP_append_cons _ _ hseparator]

/-- A text without the separator is a single piece. -/
theorem pieces_eq_singleton {separator : Char} {text : List Char} (htext : separator ∉ text) :
    pieces (· == separator) text = [text] := by
  rw [pieces_eq_splitOnP]
  refine List.splitOnP_eq_singleton fun c hc => ?_
  rw [beq_eq_false_iff_ne]
  rintro rfl
  exact htext hc

/-- Splitting a list loses what it is split at, and keeps everything else in order. -/
theorem flatten_splitOnP {α : Type} (p : α → Bool) (members : List α) :
    (members.splitOnP p).flatten = members.filter fun member => !p member := by
  induction members with
  | nil => rfl
  | cons first rest ih =>
    rw [List.splitOnP_cons_eq_if_modifyHead]
    cases hp : p first with
    | true => rw [if_pos rfl, List.flatten_cons, ih, List.filter_cons_of_neg (by simp [hp]),
        List.nil_append]
    | false =>
      rw [if_neg Bool.false_ne_true, List.filter_cons_of_pos (by simp [hp]), ← ih]
      cases hrest : rest.splitOnP p with
      | nil => exact absurd hrest (List.splitOnP_ne_nil p rest)
      | cons head others => rfl

/-- The pieces hold all other characters, in order. -/
theorem flatten_pieces (p : Char → Bool) (text : List Char) :
    (pieces p text).flatten = text.filter fun c => !p c := by
  rw [pieces_eq_splitOnP, flatten_splitOnP]

theorem mem_of_mem_piece {p : Char → Bool} {text piece : List Char} (hpiece : piece ∈ pieces p text)
    {c : Char} (hc : c ∈ piece) : c ∈ text ∧ p c = false := by
  have hmem : c ∈ (pieces p text).flatten := List.mem_flatten.mpr ⟨piece, hpiece, hc⟩
  rw [flatten_pieces, List.mem_filter] at hmem
  exact ⟨hmem.1, by simpa using hmem.2⟩

theorem dropEnd_cons {p : Char → Bool} {c : Char} (hc : p c = false) (rest : List Char) :
    dropEnd p (c :: rest) = c :: dropEnd p rest := by
  rw [dropEnd]
  split
  · rename_i hnone
    rw [hc, hnone, if_neg Bool.false_ne_true]
  · rfl

theorem mem_of_mem_dropEnd {p : Char → Bool} {text : List Char} {c : Char}
    (hc : c ∈ dropEnd p text) : c ∈ text := by
  induction text with
  | nil => exact hc
  | cons first rest ih =>
    rw [dropEnd] at hc
    split at hc
    · split at hc
      · cases hc
      · rw [List.mem_singleton] at hc
        exact hc ▸ List.mem_cons_self
    · rcases List.mem_cons.mp hc with rfl | hrest
      · exact List.mem_cons_self
      · exact List.mem_cons_of_mem first (ih hrest)

theorem mem_of_mem_trim {text : List Char} {c : Char} (hc : c ∈ trim text) : c ∈ text :=
  (List.dropWhile_sublist _).mem (mem_of_mem_dropEnd hc)

/-! ## Texts in two halves -/

/-- A text is cut at its first separator. -/
theorem cutAt_eq_some_iff {p : Char → Bool} {text front back : List Char} :
    cutAt p text = some (front, back) ↔
      (∀ c ∈ front, p c = false) ∧
        ∃ separator, p separator = true ∧ text = front ++ separator :: back := by
  induction text generalizing front with
  | nil => simp [cutAt]
  | cons c rest ih =>
    rw [cutAt]
    cases hc : p c with
    | true =>
      rw [if_pos rfl, Option.some.injEq, Prod.mk.injEq]
      constructor
      · rintro ⟨rfl, rfl⟩
        exact ⟨by simp, c, hc, rfl⟩
      · rintro ⟨hfront, separator, -, htext⟩
        cases front with
        | nil => exact ⟨rfl, (List.cons.inj htext).2⟩
        | cons first front =>
          have hfirst := hfront first List.mem_cons_self
          rw [← (List.cons.inj htext).1, hc] at hfirst
          cases hfirst
    | false =>
      rw [if_neg Bool.false_ne_true, Option.map_eq_some_iff]
      constructor
      · rintro ⟨⟨before, after⟩, hcut, heq⟩
        cases heq
        rcases ih.mp hcut with ⟨hbefore, separator, hseparator, rfl⟩
        exact ⟨List.forall_mem_cons.mpr ⟨hc, hbefore⟩, separator, hseparator, rfl⟩
      · rintro ⟨hfront, separator, hseparator, htext⟩
        cases front with
        | nil =>
          rw [(List.cons.inj htext).1, hseparator] at hc
          cases hc
        | cons first front =>
          obtain ⟨rfl, hrest⟩ := List.cons.inj htext
          exact ⟨(front, back), ih.mpr ⟨(List.forall_mem_cons.mp hfront).2, separator, hseparator,
            hrest⟩, rfl⟩

theorem cutAt_eq_none_iff {p : Char → Bool} {text : List Char} :
    cutAt p text = none ↔ ∀ c ∈ text, p c = false := by
  induction text with
  | nil => simp [cutAt]
  | cons c rest ih =>
    rw [cutAt, List.forall_mem_cons]
    cases hc : p c with
    | true => simp
    | false => simp [ih]

theorem mem_of_mem_cutAt {p : Char → Bool} {text front back : List Char}
    (hcut : cutAt p text = some (front, back)) {c : Char} (hc : c ∈ back) : c ∈ text := by
  rcases cutAt_eq_some_iff.mp hcut with ⟨-, separator, -, rfl⟩
  exact List.mem_append_right front (List.mem_cons_of_mem separator hc)

/-- What is joined by a separator is cut there again, unless it stands further in front as well. -/
theorem cutAt_append_cons {separator : Char} {front : List Char} (hfront : separator ∉ front)
    (back : List Char) :
    cutAt (· == separator) (front ++ separator :: back) = some (front, back) := by
  refine cutAt_eq_some_iff.mpr ⟨fun c hc => ?_, separator, beq_self_eq_true separator, rfl⟩
  rw [beq_eq_false_iff_ne]
  rintro rfl
  exact hfront hc

theorem cutAt_beq_eq_some_iff {separator : Char} {text front back : List Char} :
    cutAt (· == separator) text = some (front, back) ↔
      separator ∉ front ∧ text = front ++ separator :: back := by
  constructor
  · intro hcut
    rcases cutAt_eq_some_iff.mp hcut with ⟨hfront, found, hfound, rfl⟩
    obtain rfl := eq_of_beq hfound
    exact ⟨fun hmem => by simpa using hfront found hmem, rfl⟩
  · rintro ⟨hfront, rfl⟩
    exact cutAt_append_cons hfront back

theorem cutAt_beq_eq_none_iff {separator : Char} {text : List Char} :
    cutAt (· == separator) text = none ↔ separator ∉ text := by
  rw [cutAt_eq_none_iff]
  constructor
  · intro htext hmem
    simpa using htext separator hmem
  · intro htext c hc
    rw [beq_eq_false_iff_ne]
    rintro rfl
    exact htext hc

/-- Texts with the same first separator agree in both halves. -/
theorem halves_eq {separator : Char} {front front' back back' : List Char}
    (hfront : separator ∉ front) (hfront' : separator ∉ front')
    (heq : front ++ separator :: back = front' ++ separator :: back') :
    front = front' ∧ back = back' := by
  have hcut := cutAt_append_cons hfront back
  rw [heq, cutAt_append_cons hfront' back', Option.some.injEq, Prod.mk.injEq] at hcut
  exact ⟨hcut.1.symm, hcut.2.symm⟩

end RosInterface.Text
