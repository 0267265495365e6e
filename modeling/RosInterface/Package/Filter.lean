import RosInterface.Text.Blank

/-! # Package filters

A filter selects packages by name. Its terms are exact names, beginnings (`nav_*`) and endings
(`*_msgs`), and one matching term is enough.
-/

namespace RosInterface

/-- One term of a filter. -/
inductive FilterTerm where
  | exact (name : String)
  | startingWith (text : String)
  | endingWith (text : String)
deriving DecidableEq, Repr

namespace FilterTerm

/-- Reads the characters of a term. A star counts as the first or, failing that, as the last
character only. -/
def ofChars (term : List Char) : FilterTerm :=
  match term with
  | '*' :: rest => endingWith (String.ofList rest)
  | _ =>
    if term.getLast? = some '*' then startingWith (String.ofList term.dropLast)
    else exact (String.ofList term)

/-- Reads a term. -/
def parse (term : String) : FilterTerm :=
  ofChars term.toList

/-- The written form of a term. -/
def text : FilterTerm → String
  | exact name => name
  | startingWith text => text ++ "*"
  | endingWith text => "*" ++ text

/-- Whether a term selects a name. -/
def isMatch (term : FilterTerm) (name : String) : Bool :=
  match term with
  | exact other => name == other
  | startingWith text => text.toList.isPrefixOf name.toList
  | endingWith text => text.toList.isSuffixOf name.toList

/-- The name that a term requires to exist. -/
def exactName? : FilterTerm → Option String
  | exact name => some name
  | _ => none

end FilterTerm

/-- Terms any of which selects a package. A filter without terms leaves every package as it is. -/
structure PackageFilter where
  terms : List FilterTerm := []
deriving DecidableEq, Repr, Inhabited

namespace PackageFilter

/-- A filter from the written forms of its terms, blank ones left out. -/
def ofTexts (texts : List String) : PackageFilter :=
  ⟨((texts.map (·.trimBlanks)).filter (· != "")).map FilterTerm.parse⟩

/-- The written form of a filter. -/
def text (filter : PackageFilter) : String :=
  " ".intercalate (filter.terms.map (·.text))

/-- Whether a filter has no terms. -/
def isEmpty (filter : PackageFilter) : Bool :=
  filter.terms.isEmpty

/-- The names that a filter requires to exist. -/
def exactNames (filter : PackageFilter) : List String :=
  filter.terms.filterMap FilterTerm.exactName?

/-- Whether a filter selects a name. -/
def isMatch (filter : PackageFilter) (name : String) : Bool :=
  filter.terms.any (·.isMatch name)

end PackageFilter

end RosInterface
