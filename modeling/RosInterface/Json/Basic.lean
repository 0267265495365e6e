/-! # JSON values -/

namespace RosInterface

/-- A JSON value. Numbers are integers, apart from those that no reader here accepts. -/
inductive Json where
  | null
  | bool (value : Bool)
  | integer (value : Int)
  /-- A number with a fraction or an exponent, as it is written. -/
  | real (text : String)
  | string (value : String)
  | array (members : List Json)
  /-- The members of an object in the order in which they are written. -/
  | object (members : List (String × Json))

namespace Json

instance : Inhabited Json :=
  ⟨null⟩

/-- A natural number. -/
def nat (value : Nat) : Json :=
  integer value

/-- A text that may be absent. -/
def optional : Option String → Json
  | some text => string text
  | none => null

/-- A list of texts. -/
def strings (texts : List String) : Json :=
  array (texts.map string)

end Json

end RosInterface
