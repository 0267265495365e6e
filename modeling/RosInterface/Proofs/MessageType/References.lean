import RosInterface.Proofs.Text.Blanks

namespace RosInterface

/-! # The grammar of type references, declaratively

The texts that refer to a type are a base, a base and `[]`, or a base and a size in brackets:

* `IsReference` says which texts these are, in words that mention neither a package nor a scan;
* `Denotes` says in addition what such a text refers to when it stands in a definition of a package.

Reading a reference comes to `Denotes`. Since a reference names its package where it is written out,
its written form denotes it everywhere, which is why it can be read again in any package.
-/

/-! ## Names -/

theorem isMemberName_of_isTypeName {name : List Char} (hname : isTypeName name = true) :
    isMemberName name = true := by
  cases name with
  | nil => cases hname
  | cons first rest =>
    simp only [isTypeName, Bool.and_eq_true] at hname
    simp only [isMemberName, Bool.and_eq_true, Bool.or_eq_true]
    exact hname.imp_left Or.inl

theorem isNameChar_of_isMemberName {name : List Char} (hname : isMemberName name = true) :
    ∀ c ∈ name, isNameChar c = true := by
  cases name with
  | nil => simp
  | cons first rest =>
    simp only [isMemberName, Bool.and_eq_true, Bool.or_eq_true, List.all_eq_true] at hname
    rw [List.forall_mem_cons]
    refine ⟨?_, hname.2⟩
    simp only [isNameChar, Bool.or_eq_true]
    exact hname.1.imp Or.inl id

/-- What is no character of a name is in no name. -/
theorem not_mem_of_isMemberName {name : List Char} (hname : isMemberName name = true) {c : Char}
    (hc : isNameChar c = false) : c ∉ name := by
  intro hmem
  rw [isNameChar_of_isMemberName hname c hmem] at hc
  cases hc

theorem isTypeName_of_mem_builtInTypes {name : String} (hname : name ∈ builtInTypes) :
    isTypeName name.toList = true := by
  have hall : ∀ name ∈ builtInTypes, isTypeName name.toList = true := by decide +kernel
  exact hall name hname

/-! ## Texts of references -/

/-- A size is written in decimal digits, behind a plus sign or without one, and is less than
`2 ^ 64`. -/
inductive WritesSize : List Char → Nat → Prop where
  | intro {sign digits : List Char} (signed : sign = [] ∨ sign = ['+']) (nonempty : digits ≠ [])
      (decimal : ∀ c ∈ digits, c.isDigit = true)
      (fits : Nat.ofDigitChars 10 digits 0 < 18446744073709551616) :
      WritesSize (sign ++ digits) (Nat.ofDigitChars 10 digits 0)

/-- The base of a reference is an identifier, or two of them with a slash between them. -/
inductive IsBase : List Char → Prop where
  | bare {name : List Char} (name_proper : isTypeName name = true) : IsBase name
  | qualified {package name : List Char} (package_proper : isTypeName package = true)
      (name_proper : isTypeName name = true) : IsBase (package ++ '/' :: name)

/-- The texts that refer to a type. -/
inductive IsReference : List Char → Prop where
  | single {base : List Char} (of : IsBase base) : IsReference base
  | unbounded {base : List Char} (of : IsBase base) : IsReference (base ++ ['[', ']'])
  | bounded {base digits : List Char} {size : Nat} (of : IsBase base)
      (bound : WritesSize digits size) : IsReference (base ++ '[' :: (digits ++ [']']))

/-! ## What texts refer to -/

/-- The type that a base names in a definition of `current`. A bare name is that of a built-in type,
that of the common header, or that of a type of `current`. -/
inductive Names (current : String) : List Char → TypeReference → Prop where
  | builtIn {name : String} (known : name ∈ builtInTypes) :
      Names current name.toList (.builtIn name)
  | header : Names current "Header".toList (.message "std_msgs" "Header")
  | within {name : String} (proper : isTypeName name.toList = true) (new : name ∉ builtInTypes)
      (other : name ≠ "Header") : Names current name.toList (.message current name)
  | qualified {package name : String} (package_proper : isTypeName package.toList = true)
      (name_proper : isTypeName name.toList = true) :
      Names current (package.toList ++ '/' :: name.toList) (.message package name)

/-- What a text refers to in a definition of `current`. A size of zero is no bound. -/
inductive Denotes (current : String) : List Char → TypeReference → Prop where
  | single {base : List Char} {type : TypeReference} (of : Names current base type) :
      Denotes current base type
  | unbounded {base : List Char} {type : TypeReference} (of : Names current base type) :
      Denotes current (base ++ ['[', ']']) (type.toArray none)
  | bounded {base digits : List Char} {type : TypeReference} {size : Nat}
      (of : Names current base type) (bound : WritesSize digits size) :
      Denotes current (base ++ '[' :: (digits ++ [']'])) (type.toArray (some size))

variable {current : String} {base text : List Char} {type : TypeReference}

/-- The texts that name something in a package are the bases, whatever the package is. -/
theorem exists_names_iff : (∃ type, Names current base type) ↔ IsBase base := by
  constructor
  · rintro ⟨type, h⟩
    cases h with
    | builtIn known => exact .bare (isTypeName_of_mem_builtInTypes known)
    | header => exact .bare (by decide +kernel)
    | within proper new other => exact .bare proper
    | qualified package_proper name_proper => exact .qualified package_proper name_proper
  · rintro (⟨name_proper⟩ | ⟨package_proper, name_proper⟩)
    · rw [← String.toList_ofList (l := base)] at name_proper ⊢
      by_cases hbuiltIn : String.ofList base ∈ builtInTypes
      · exact ⟨_, .builtIn hbuiltIn⟩
      · by_cases hheader : String.ofList base = "Header"
        · rw [hheader]
          exact ⟨_, .header⟩
        · exact ⟨_, .within name_proper hbuiltIn hheader⟩
    · rename_i package name
      rw [← String.toList_ofList (l := package)] at package_proper ⊢
      rw [← String.toList_ofList (l := name)] at name_proper ⊢
      exact ⟨_, .qualified package_proper name_proper⟩

theorem exists_denotes_iff : (∃ type, Denotes current text type) ↔ IsReference text := by
  constructor
  · rintro ⟨type, h⟩
    cases h with
    | single of => exact .single (exists_names_iff.mp ⟨_, of⟩)
    | unbounded of => exact .unbounded (exists_names_iff.mp ⟨_, of⟩)
    | bounded of bound => exact .bounded (exists_names_iff.mp ⟨_, of⟩) bound
  · intro h
    cases h with
    | single of =>
      rcases exists_names_iff.mpr of with ⟨type, hnames⟩
      exact ⟨type, .single hnames⟩
    | unbounded of =>
      rcases exists_names_iff.mpr of with ⟨type, hnames⟩
      exact ⟨_, .unbounded hnames⟩
    | bounded of bound =>
      rcases exists_names_iff.mpr of with ⟨type, hnames⟩
      exact ⟨_, .bounded hnames bound⟩

theorem Names.isArray_eq_false (h : Names current base type) : type.isArray = false := by
  cases h with
  | builtIn | header | within | qualified => rfl

theorem Names.eq_builtIn (h : Names current base type) (hbuiltIn : type.isBuiltIn = true) :
    ∃ name ∈ builtInTypes, type = .builtIn name := by
  cases h with
  | builtIn known => exact ⟨_, known, rfl⟩
  | header | within | qualified => cases hbuiltIn

/-- A single value of a built-in type is of a type of the table. -/
theorem Denotes.eq_builtIn (h : Denotes current text type) (hbuiltIn : type.isBuiltIn = true)
    (hsingle : type.isArray = false) : ∃ name ∈ builtInTypes, type = .builtIn name := by
  cases h with
  | single of => exact of.eq_builtIn hbuiltIn
  | unbounded of | bounded of bound => cases hsingle

/-- A built-in type that is referred to is one of the table, or an array of it. -/
theorem Denotes.of_isBuiltIn (h : Denotes current text type) (hbuiltIn : type.isBuiltIn = true) :
    type.package = none ∧ type.name ∈ builtInTypes := by
  cases h with
  | single of | unbounded of | bounded of bound =>
    rcases of.eq_builtIn hbuiltIn with ⟨name, known, rfl⟩
    exact ⟨rfl, known⟩

/-! ## Characters of references -/

theorem IsBase.forall_mem {p : Char → Prop} (h : IsBase base)
    (hname : ∀ c, isNameChar c = true → p c) (hslash : p '/') : ∀ c ∈ base, p c := by
  have hproper : ∀ name : List Char, isTypeName name = true → ∀ c ∈ name, p c :=
    fun name proper c hc =>
      hname c (isNameChar_of_isMemberName (isMemberName_of_isTypeName proper) c hc)
  cases h with
  | bare name_proper => exact hproper _ name_proper
  | qualified package_proper name_proper =>
    rw [List.forall_mem_append, List.forall_mem_cons]
    exact ⟨hproper _ package_proper, hslash, hproper _ name_proper⟩

theorem WritesSize.forall_mem {p : Char → Prop} {digits : List Char} {size : Nat}
    (h : WritesSize digits size) (hname : ∀ c, isNameChar c = true → p c) (hplus : p '+') :
    ∀ c ∈ digits, p c := by
  cases h with
  | intro signed nonempty decimal fits =>
    rw [List.forall_mem_append]
    refine ⟨?_, fun c hc => hname c (by simp [isNameChar, decimal c hc])⟩
    rcases signed with rfl | rfl
    · simp
    · simpa using hplus

/-- References have the characters of names, and few others. -/
theorem IsReference.forall_mem {p : Char → Prop} (h : IsReference text)
    (hname : ∀ c, isNameChar c = true → p c) (hmarks : p '/' ∧ p '[' ∧ p '+' ∧ p ']') :
    ∀ c ∈ text, p c := by
  rcases hmarks with ⟨hslash, hopen, hplus, hclose⟩
  cases h with
  | single of => exact of.forall_mem hname hslash
  | unbounded of =>
    rw [List.forall_mem_append]
    exact ⟨of.forall_mem hname hslash, by simp [hopen, hclose]⟩
  | bounded of bound =>
    rw [List.forall_mem_append, List.forall_mem_cons, List.forall_mem_append]
    exact ⟨of.forall_mem hname hslash, hopen, bound.forall_mem hname hplus, by simp [hclose]⟩

theorem Denotes.forall_mem {p : Char → Prop} (h : Denotes current text type)
    (hname : ∀ c, isNameChar c = true → p c) (hmarks : p '/' ∧ p '[' ∧ p '+' ∧ p ']') :
    ∀ c ∈ text, p c :=
  (exists_denotes_iff.mp ⟨type, h⟩).forall_mem hname hmarks

theorem Denotes.ne_nil (h : Denotes current text type) : text ≠ [] := by
  have hbase : ∀ {base : List Char}, IsBase base → base ≠ [] := by
    rintro base (⟨name_proper⟩ | ⟨package_proper, name_proper⟩)
    · rintro rfl
      cases name_proper
    · simp
  cases exists_denotes_iff.mp ⟨type, h⟩ with
  | single of => exact hbase of
  | unbounded of | bounded of bound => simp

/-- There is no blank within a reference. -/
theorem Denotes.isBlank_eq_false (h : Denotes current text type) :
    ∀ c ∈ text, Text.isBlank c = false :=
  h.forall_mem (fun _ hname => Text.isBlank_of_isNameChar hname) (by decide)

/-- What is neither a character of a name nor a mark of its own is in no reference. -/
theorem Denotes.not_mem (h : Denotes current text type) {c : Char} (hname : isNameChar c = false)
    (hmarks : c ∉ ['/', '[', '+', ']']) : c ∉ text := by
  refine fun hmem => h.forall_mem (p := (· ≠ c)) ?_ ?_ c hmem rfl
  · rintro other hother rfl
    rw [hother] at hname
    cases hname
  · simpa [eq_comm] using hmarks

/-! ## Reading -/

/-- The value of the digits of a size. -/
def sizeOfDigits? (digits : List Char) : Option Nat :=
  if digits.isEmpty || !digits.all Char.isDigit then none
  else if Nat.ofDigitChars 10 digits 0 < arraySizeBound then some (Nat.ofDigitChars 10 digits 0)
  else none

theorem parseArraySize_plus (digits : List Char) :
    parseArraySize ('+' :: digits) = sizeOfDigits? digits :=
  rfl

theorem parseArraySize_plain {digits : List Char} (hplus : digits.head? ≠ some '+') :
    parseArraySize digits = sizeOfDigits? digits := by
  unfold parseArraySize
  split
  · exact absurd rfl hplus
  · rfl

theorem sizeOfDigits?_eq_some_iff {digits : List Char} {size : Nat} :
    sizeOfDigits? digits = some size ↔
      digits ≠ [] ∧ (∀ c ∈ digits, c.isDigit = true) ∧
        Nat.ofDigitChars 10 digits 0 < 18446744073709551616 ∧
        Nat.ofDigitChars 10 digits 0 = size := by
  have hproper : (digits.isEmpty || !digits.all Char.isDigit) = true ↔
      ¬ (digits ≠ [] ∧ ∀ c ∈ digits, c.isDigit = true) := by
    rw [Bool.or_eq_true, List.isEmpty_iff, Bool.not_eq_true', ← Bool.not_eq_true,
      List.all_eq_true, not_and_or, not_not]
  unfold sizeOfDigits? arraySizeBound
  simp only [hproper, UInt64.size, Option.ite_none_left_eq_some, Option.ite_none_right_eq_some,
    Option.some.injEq, not_not, and_assoc]

theorem parseArraySize_eq_some_iff {size : Nat} :
    parseArraySize text = some size ↔ WritesSize text size := by
  constructor
  · intro hsome
    by_cases hplus : text.head? = some '+'
    · rcases List.head?_eq_some_iff.mp hplus with ⟨digits, rfl⟩
      rw [parseArraySize_plus] at hsome
      rcases sizeOfDigits?_eq_some_iff.mp hsome with ⟨nonempty, decimal, fits, rfl⟩
      exact @WritesSize.intro ['+'] digits (.inr rfl) nonempty decimal fits
    · rw [parseArraySize_plain hplus] at hsome
      rcases sizeOfDigits?_eq_some_iff.mp hsome with ⟨nonempty, decimal, fits, rfl⟩
      exact @WritesSize.intro [] text (.inl rfl) nonempty decimal fits
  · rintro ⟨rfl | rfl, nonempty, decimal, fits⟩
    · -- A plus sign is no digit.
      refine (parseArraySize_plain fun hplus => ?_).trans
        (sizeOfDigits?_eq_some_iff.mpr ⟨nonempty, decimal, fits, rfl⟩)
      exact absurd (decimal '+' (List.mem_of_mem_head? hplus)) (by decide)
    · exact sizeOfDigits?_eq_some_iff.mpr ⟨nonempty, decimal, fits, rfl⟩

theorem dropFinal_eq_some_iff {c : Char} {front : List Char} :
    dropFinal c text = some front ↔ text = front ++ [c] := by
  fun_induction dropFinal c text generalizing front with
  | case1 => simp
  | case2 => simp [eq_comm]
  | case3 last hother =>
    cases front with
    | nil => simp [hother]
    | cons first front => simp
  | case4 first rest hrest ih =>
    rw [Option.map_eq_some_iff]
    constructor
    · rintro ⟨kept, hkept, rfl⟩
      rw [ih.mp hkept]
      rfl
    · intro htext
      cases front with
      | nil => exact absurd (List.cons.inj htext).2 (by simpa using hrest)
      | cons head front =>
        obtain ⟨rfl, hlast⟩ := List.cons.inj htext
        exact ⟨front, ih.mpr hlast, rfl⟩

theorem parseArrayBound_eq_some_iff {bound : Option Nat} :
    parseArrayBound text = some bound ↔
      (text = [']'] ∧ bound = none) ∨
        ∃ digits size, text = digits ++ [']'] ∧ WritesSize digits size ∧ bound = some size := by
  unfold parseArrayBound
  constructor
  · intro hbound
    split at hbound
    · cases hbound
    · rename_i hdrop
      cases hbound
      exact .inl ⟨dropFinal_eq_some_iff.mp hdrop, rfl⟩
    · rename_i digits _ hdrop
      rcases Option.map_eq_some_iff.mp hbound with ⟨size, hsize, rfl⟩
      exact .inr ⟨digits, size, dropFinal_eq_some_iff.mp hdrop,
        parseArraySize_eq_some_iff.mp hsize, rfl⟩
  · rintro (⟨rfl, rfl⟩ | ⟨digits, size, rfl, hsize, rfl⟩)
    · rfl
    · rw [dropFinal_eq_some_iff.mpr rfl]
      have hread := parseArraySize_eq_some_iff.mpr hsize
      cases digits with
      | nil => cases hread
      | cons first rest =>
        dsimp only
        rw [hread]
        rfl

/-- A base is cut at its slash if it has one. -/
theorem cutAt_name {name : List Char} (hname : isTypeName name = true) :
    Text.cutAt (· == '/') name = none := by
  rw [Text.cutAt_beq_eq_none_iff]
  exact not_mem_of_isMemberName (isMemberName_of_isTypeName hname) (by decide)

theorem parseBase_eq_some_iff : parseBase current base = some type ↔ Names current base type := by
  constructor
  · intro hbase
    unfold parseBase at hbase
    split at hbase
    · rename_i package name hcut
      split at hbase
      · rename_i hproper
        cases hbase
        obtain ⟨-, rfl⟩ := Text.cutAt_beq_eq_some_iff.mp hcut
        rw [Bool.and_eq_true] at hproper
        simpa using @Names.qualified current (String.ofList package) (String.ofList name)
          (by simpa using hproper.1) (by simpa using hproper.2)
      · cases hbase
    · split at hbase
      · cases hbase
      · rename_i hproper
        rw [Bool.not_eq_true', Bool.not_eq_false] at hproper
        rw [← String.toList_ofList (l := base)] at hproper ⊢
        dsimp only at hbase
        -- A bare name is looked up in the table first, and compared with the header then.
        split at hbase
        · rename_i hbuiltIn
          cases hbase
          exact .builtIn (List.contains_iff_mem.mp hbuiltIn)
        · rename_i hother
          have hnew : String.ofList base ∉ builtInTypes := fun hmem =>
            hother (List.contains_iff_mem.mpr hmem)
          split at hbase
          · rename_i hheader
            cases hbase
            rw [hheader]
            exact .header
          · rename_i hheader
            cases hbase
            exact .within hproper hnew hheader
  · intro h
    unfold parseBase
    cases h with
    | builtIn known =>
      have hproper := isTypeName_of_mem_builtInTypes known
      simp [cutAt_name hproper, hproper, isBuiltInName, known]
    | header => rfl
    | @within name proper new other =>
      simp [cutAt_name proper, proper, isBuiltInName, new, headerIdentity, other]
    | @qualified package name package_proper name_proper =>
      have hslash := not_mem_of_isMemberName (isMemberName_of_isTypeName package_proper)
        (c := '/') (by decide)
      simp [Text.cutAt_append_cons hslash, package_proper, name_proper]

/-- No base has a bracket in it. -/
theorem Names.bracket_not_mem (h : Names current base type) : '[' ∉ base := by
  refine fun hmem => (exists_names_iff.mp ⟨type, h⟩).forall_mem (p := (· ≠ '[')) ?_ (by decide)
    '[' hmem rfl
  rintro c hname rfl
  exact absurd hname (by decide)

theorem parseReference?_eq_some_iff :
    parseReference? current text = some type ↔ Denotes current text type := by
  unfold parseReference?
  constructor
  · intro hread
    split at hread
    · exact .single (parseBase_eq_some_iff.mp hread)
    · rename_i base bound hcut
      obtain ⟨-, rfl⟩ := Text.cutAt_beq_eq_some_iff.mp hcut
      split at hread
      · rename_i hbound hbase
        cases hread
        have hnames := parseBase_eq_some_iff.mp hbase
        rcases parseArrayBound_eq_some_iff.mp hbound with
          ⟨rfl, rfl⟩ | ⟨digits, size, rfl, hsize, rfl⟩
        · exact .unbounded hnames
        · exact .bounded hnames hsize
      · cases hread
  · intro h
    cases h with
    | single of =>
      rw [Text.cutAt_beq_eq_none_iff.mpr of.bracket_not_mem]
      exact parseBase_eq_some_iff.mpr of
    | unbounded of =>
      rw [Text.cutAt_append_cons of.bracket_not_mem]
      simp [parseBase_eq_some_iff.mpr of, parseArrayBound_eq_some_iff.mpr (.inl ⟨rfl, rfl⟩)]
    | bounded of bound =>
      rw [Text.cutAt_append_cons of.bracket_not_mem]
      simp [parseBase_eq_some_iff.mpr of,
        parseArrayBound_eq_some_iff.mpr (.inr ⟨_, _, rfl, bound, rfl⟩)]

namespace TypeReference

/-- Reading succeeds with what the text denotes without the blanks around it. -/
theorem parse_eq_ok_iff {text : String} :
    parse current text = .ok type ↔ Denotes current (Text.trim text.toList) type := by
  rw [← parseReference?_eq_some_iff, parse]
  cases parseReference? current (Text.trim text.toList) with
  | none => simp
  | some found => simp

end TypeReference

/-! ## Written forms -/

/-- The written form of what a base names is a base that names the same everywhere, provided that
the package has a proper name, which a bare base leaves out. -/
theorem Names.baseName (h : Names current base type) (hcurrent : isTypeName current.toList = true)
    (other : String) : Names other type.baseName.toList type := by
  have hqualified : ∀ package name : String, (TypeReference.message package name).baseName.toList =
      package.toList ++ '/' :: name.toList := by
    intro package name
    simp [TypeReference.message, TypeReference.baseName, TypeReference.identity,
      TypeIdentity.text]
  cases h with
  | builtIn known => exact .builtIn known
  | header =>
    rw [hqualified]
    exact .qualified (by decide +kernel) (by decide +kernel)
  | within proper new other =>
    rw [hqualified]
    exact .qualified hcurrent proper
  | qualified package_proper name_proper =>
    rw [hqualified]
    exact .qualified package_proper name_proper

theorem WritesSize.lt {digits : List Char} {size : Nat} (h : WritesSize digits size) :
    size < 18446744073709551616 := by
  cases h with
  | intro signed nonempty decimal fits => exact fits

/-- The digits of a number are one way to write it as a size. -/
theorem writesSize_toDigits {size : Nat} (hsize : size < 18446744073709551616) :
    WritesSize (Nat.toDigits 10 size) size := by
  have hvalue : Nat.ofDigitChars 10 (Nat.toDigits 10 size) 0 = size :=
    Nat.ofDigitChars_ten_toDigits
  have hwrites := @WritesSize.intro [] (Nat.toDigits 10 size) (.inl rfl) Nat.toDigits_ne_nil
    (fun c hc => Nat.isDigit_of_mem_toDigits (by decide) (by decide) hc) (hvalue.symm ▸ hsize)
  rwa [List.nil_append, hvalue] at hwrites

/-- The written form of what a text refers to denotes the same everywhere. -/
theorem Denotes.written (h : Denotes current text type) (hcurrent : isTypeName current.toList = true)
    (other : String) : Denotes other type.text.toList type := by
  cases h with
  | single of =>
    have hsuffix : type.arraySuffix = "" := by
      simp [TypeReference.arraySuffix, of.isArray_eq_false]
    rw [TypeReference.text, hsuffix, String.append_empty]
    exact .single (of.baseName hcurrent other)
  | @unbounded _ single of =>
    have htext : (single.toArray none).text.toList = single.baseName.toList ++ ['[', ']'] := by
      simp [TypeReference.text, TypeReference.toArray, TypeReference.arraySuffix,
        TypeReference.baseName, TypeReference.identity]
    rw [htext]
    exact .unbounded (of.baseName hcurrent other)
  | @bounded _ digits single size of bound =>
    by_cases hzero : size = 0
    · -- A size of zero is written as no bound at all.
      have htext : (single.toArray (some size)).text.toList =
          single.baseName.toList ++ ['[', ']'] := by
        simp [TypeReference.text, TypeReference.toArray, TypeReference.arraySuffix,
          TypeReference.baseName, TypeReference.identity, hzero]
      have hnone : single.toArray (some size) = single.toArray none := by rw [hzero]; rfl
      rw [htext, hnone]
      exact .unbounded (of.baseName hcurrent other)
    · have htext : (single.toArray (some size)).text.toList =
          single.baseName.toList ++ '[' :: (Nat.toDigits 10 size ++ [']']) := by
        simp [TypeReference.text, TypeReference.toArray, TypeReference.arraySuffix,
          TypeReference.baseName, TypeReference.identity, hzero]
      rw [htext]
      exact .bounded (of.baseName hcurrent other) (writesSize_toDigits bound.lt)

namespace TypeReference

/-- Written forms are read as what they are the forms of. -/
theorem parse_text_of_denotes {other : String} (h : Denotes other type.text.toList type) :
    parse other type.text = .ok type := by
  rw [parse_eq_ok_iff, Text.trim_eq_self h.isBlank_eq_false]
  exact h

/-- A text is read as a reference exactly if it is one without the blanks around it: a base alone,
with `[]` or with a size in brackets. Whatever is read in a package with a proper name is read again
from its written form, in any package. -/
theorem parse_inverts_text (current text : String) :
    ((∃ type, parse current text = .ok type) ↔ IsReference (Text.trim text.toList)) ∧
      (isTypeName current.toList = true → ∀ type, parse current text = .ok type →
        ∀ other, parse other type.text = .ok type) := by
  constructor
  · rw [← @exists_denotes_iff current]
    exact exists_congr fun type => parse_eq_ok_iff
  · intro hcurrent type hparse other
    exact parse_text_of_denotes ((parse_eq_ok_iff.mp hparse).written hcurrent other)

/-- A bare name with a size that is not in its shortest form is read again in another package. -/
theorem parse_inverts_bounded :
    isTypeName "a".toList = true ∧
      parse "a" " Point[+0036]\t" = .ok ((message "a" "Point").toArray (some 36)) ∧
      parse "b" "a/Point[36]" = .ok ((message "a" "Point").toArray (some 36)) := by
  have hcurrent : isTypeName "a".toList = true := by decide
  have hread : parse "a" " Point[+0036]\t" = .ok ((message "a" "Point").toArray (some 36)) := by
    decide +kernel
  exact ⟨hcurrent, hread, (parse_inverts_text "a" " Point[+0036]\t").2 hcurrent _ hread "b"⟩

end TypeReference

end RosInterface
