import RosInterface.Configuration
import RosInterface.Proofs.MessageType.References
import RosInterface.Proofs.Path

namespace RosInterface

/-! # Slashes in names

The name of a definition file has no slash, and no name that is made from slashless texts has one:
neither a type's name on the wire, nor a namespace. So the written form of a type tells its package.
-/

namespace Text

theorem eq_of_ofNat_eq_slash {code : Nat} (h : Char.ofNat code = '/') : code = '/'.toNat := by
  by_cases hvalid : code.isValidChar
  · have hchar : Char.ofNat code = Char.ofNatAux code hvalid := dif_pos hvalid
    exact congrArg Char.toNat (hchar.symm.trans h)
  · have hnull : Char.ofNat code = Char.ofNat 0 := dif_neg hvalid
    exact absurd (hnull.symm.trans h) (by decide)

/-- Nothing but a slash has a slash as its upper case. -/
theorem eq_slash_of_mem_uppercase {c : Char} (hslash : '/' ∈ uppercase c) : c = '/' := by
  unfold uppercase at hslash
  dsimp only at hslash
  split at hslash
  · rename_i hascii
    have hall : ∀ n < 0x80, (Char.ofNat n).toUpper = '/' → Char.ofNat n = '/' := by decide +kernel
    rw [List.mem_singleton] at hslash
    have hc := hall c.toNat hascii
    rw [Char.ofNat_toNat] at hc
    exact hc hslash.symm
  · split at hslash
    · rename_i codes hlookup
      have hnone : ∀ entry ∈ longUppercase, '/'.toNat ∉ entry.2 := by decide
      rcases List.lookup_eq_some_iff.mp hlookup with ⟨front, back, hsplit, -⟩
      rcases List.mem_map.mp hslash with ⟨code, hcode, hof⟩
      rw [eq_of_ofNat_eq_slash hof] at hcode
      exact absurd hcode (hnone (c.toNat, codes) (by rw [hsplit]; simp))
    · split at hslash
      · rename_i run hrun
        -- Every run starts with a character whose upper case comes behind the slash.
        have hbehind : ∀ run ∈ caseRuns, ('/'.toNat : Int) < run.first + run.shift := by
          decide +kernel
        have hfirst := hbehind run (List.mem_of_find?_eq_some hrun)
        have hcontains := List.find?_some hrun
        rw [List.mem_singleton] at hslash
        have hcode := eq_of_ofNat_eq_slash hslash.symm
        have hstart : run.first ≤ c.toNat := by
          simp only [CaseRun.contains, Bool.and_eq_true, decide_eq_true_eq] at hcontains
          exact hcontains.1.1
        omega
      · exact (List.mem_singleton.mp hslash).symm

end Text

namespace Path

theorem slash_not_mem_fileName {path : Path} {text : String} (hname : path.fileName? = some text) :
    '/' ∉ text.toList := by
  unfold fileName? at hname
  split at hname
  · rename_i last hlast
    cases hname
    have hmove : PathPart.name text ∈ path.moves :=
      List.mem_filter.mpr ⟨List.mem_of_getLast? hlast, rfl⟩
    exact (isPlain_of_mem_moves hmove).1
  · cases hname

/-- A stem is a part of the file name. -/
theorem mem_of_mem_splitName {name : List Char} {c : Char} (hc : c ∈ (splitName name).1) :
    c ∈ name := by
  unfold splitName at hc
  split at hc
  · exact hc
  · exact hc
  · rename_i hcut
    exact List.mem_reverse.mp (Text.mem_of_mem_cutAt hcut (List.mem_reverse.mp hc))

end Path

theorem MessageFile.slash_not_mem_typeName (file : MessageFile) :
    '/' ∉ file.typeName.toList := by
  unfold typeName Path.stem?
  cases hname : file.path.fileName? with
  | none => simp
  | some name =>
    rw [Option.map_some, Option.getD_some, String.toList_ofList]
    exact fun hslash => Path.slash_not_mem_fileName hname (Path.mem_of_mem_splitName hslash)

/-- Types of packages that are written alike are the same, unless their names have slashes. -/
theorem TypeIdentity.eq_of_text_eq {a b : TypeIdentity} {package other : String}
    (ha : a.package = some package) (hb : b.package = some other)
    (hslash : '/' ∉ a.name.toList) (hslash' : '/' ∉ b.name.toList) (heq : a.text = b.text) :
    a = b := by
  rcases a with ⟨_, name⟩
  rcases b with ⟨_, name'⟩
  subst ha hb
  -- The slash between package and name is the last one of the text.
  have hchars : name.toList.reverse ++ '/' :: package.toList.reverse =
      name'.toList.reverse ++ '/' :: other.toList.reverse := by
    simpa [TypeIdentity.text] using congrArg (·.toList.reverse) heq
  rcases Text.halves_eq (by simpa using hslash) (by simpa using hslash') hchars with
    ⟨hname, hpackage⟩
  rw [String.toList_inj.mp (List.reverse_inj.mp hname),
    String.toList_inj.mp (List.reverse_inj.mp hpackage)]

namespace Naming

theorem slash_not_mem_rosTypeName {fileName : String} (hslash : '/' ∉ fileName.toList)
    (part : Option MessagePart) : '/' ∉ (rosTypeName fileName part).toList := by
  have htrim : '/' ∉ fileName.trimBlanks.toList := by
    rw [String.trimBlanks, String.toList_ofList]
    exact fun hmem => hslash (Text.mem_of_mem_trim hmem)
  cases part with
  | none => exact htrim
  | some part =>
    have hsuffix : '/' ∉ part.suffix.toList := by
      cases part with
      | request | response | goal | result | feedback => decide
    rw [rosTypeName, String.toList_append, List.mem_append]
    exact fun hmem => hmem.elim htrim hsuffix

theorem slash_not_mem_pascalCase {name : String} (hslash : '/' ∉ name.toList) :
    '/' ∉ (pascalCase name).toList := by
  rw [pascalCase, String.toList_ofList]
  intro hmem
  rcases List.mem_flatMap.mp hmem with ⟨piece, hpiece, hmem⟩
  have hinside : '/' ∈ piece := by
    cases piece with
    | nil => cases hmem
    | cons first rest =>
      rcases List.mem_append.mp hmem with hfirst | hrest
      · exact Text.eq_slash_of_mem_uppercase hfirst ▸ List.mem_cons_self
      · exact List.mem_cons_of_mem first hrest
  exact hslash (Text.mem_of_mem_piece hpiece hinside).1

/-! ## Namespaces -/

/-- A first character that is neither blank nor a dot stays when a namespace is trimmed. -/
theorem trimNamespace_cons {text : String} {first : Char} {rest : List Char}
    (htext : text.toList = first :: rest) (hblank : Text.isBlank first = false)
    (hdot : (first == '.') = false) : first ∈ (trimNamespace text).toList := by
  rw [trimNamespace, String.toList_ofList, htext, Text.trim, Text.trimStart, Text.dropStart,
    List.dropWhile_cons_of_neg (by simp [hblank]), Text.trimEnd, Text.dropEnd_cons hblank,
    @Text.dropEnd_cons (· == '.') first hdot]
  exact List.mem_cons_self

/-- What a valid namespace leaves when it is trimmed has no slash, and is more than dots. -/
theorem trimNamespace_of_isNamespace {text : String}
    (hvalid : Configuration.isNamespace text = true) :
    '/' ∉ (trimNamespace text).toList ∧ ∃ c ∈ (trimNamespace text).toList, c ≠ '.' := by
  have hnames : ∀ piece ∈ Text.pieces (· == '.') text.toList, isMemberName piece = true :=
    List.all_eq_true.mp hvalid
  constructor
  · intro hmem
    rw [trimNamespace, String.toList_ofList] at hmem
    have hslash : '/' ∈ (Text.pieces (· == '.') text.toList).flatten := by
      rw [Text.flatten_pieces, List.mem_filter]
      exact ⟨Text.mem_of_mem_trim (Text.mem_of_mem_dropEnd hmem), by decide⟩
    rcases List.mem_flatten.mp hslash with ⟨piece, hpiece, hinside⟩
    exact not_mem_of_isMemberName (hnames piece hpiece) (by decide) hinside
  · -- The first piece starts with a character of a name, and so does the text.
    cases htext : text.toList with
    | nil =>
      rw [htext] at hnames
      exact absurd (hnames [] (by simp [Text.pieces])) (by decide)
    | cons first rest =>
      have hstart : isNameChar first = true := by
        rw [htext, Text.pieces] at hnames
        split at hnames
        · exact absurd (hnames [] List.mem_cons_self) (by decide)
        · split at hnames
          · exact isNameChar_of_isMemberName (hnames _ List.mem_cons_self) first List.mem_cons_self
          · exact isNameChar_of_isMemberName (hnames _ List.mem_cons_self) first List.mem_cons_self
      have hdot : first ≠ '.' := by
        rintro rfl
        exact absurd hstart (by decide)
      have hkept := trimNamespace_cons htext (Text.isBlank_of_isNameChar hstart)
        (beq_eq_false_iff_ne.mpr hdot)
      exact ⟨first, hkept, hdot⟩

/-- Without a root namespace, the namespace of a package is its name in camel case. -/
theorem namespaceOf_empty (package : String) : namespaceOf "" package = pascalCase package := by
  have hnone : trimNamespace "" = "" := by decide
  unfold namespaceOf
  rw [hnone]
  exact if_pos rfl

/-- A root namespace makes every slashless name plain. -/
theorem isPlain_namespaceOf {root package : String} (hroot : Configuration.isNamespace root = true)
    (hslash : '/' ∉ package.toList) : Path.IsPlain (namespaceOf root package) := by
  rcases trimNamespace_of_isNamespace hroot with ⟨hrootSlash, c, hc, hdot⟩
  have hsome : trimNamespace root ≠ "" := by
    intro hnone
    rw [hnone] at hc
    simp at hc
  have hnamespace : namespaceOf root package = trimNamespace root ++ "." ++ pascalCase package :=
    if_neg hsome
  refine Path.isPlain_of_mem ?_ ?_ hdot
  · simp only [hnamespace, String.toList_append, List.mem_append]
    rintro ((hmem | hmem) | hmem)
    · exact hrootSlash hmem
    · exact absurd hmem (by decide)
    · exact slash_not_mem_pascalCase hslash hmem
  · simp only [hnamespace, String.toList_append, List.mem_append]
    exact Or.inl (Or.inl hc)

end Naming

end RosInterface
