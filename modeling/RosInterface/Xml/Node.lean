import RosInterface.Text.Blank

/-! # XML documents

A document as a tree of elements and texts. Names are split from their namespaces; comments and
processing instructions leave no trace.
-/

namespace RosInterface.Xml

/-- An attribute of an element. -/
structure Attribute where
  /-- The name of the attribute's namespace. -/
  uri : Option String
  name : String
  value : String
deriving DecidableEq, Repr

/-- An element or a text. -/
inductive Node where
  | element (name : String) (attributes : List Attribute) (children : List Node)
  | text (content : String)

namespace Node

instance : Inhabited Node :=
  ⟨text ""⟩

/-- The name of an element without its namespace. -/
def name? : Node → Option String
  | element name _ _ => some name
  | text _ => none

/-- The nodes directly inside an element. -/
def children : Node → List Node
  | element _ _ children => children
  | text _ => []

/-- The value of an attribute that belongs to no namespace. -/
def attribute? (node : Node) (name : String) : Option String :=
  match node with
  | element _ attributes _ =>
    (attributes.find? fun a => a.uri == none && a.name == name).map (·.value)
  | text _ => none

/-- The elements of a given name directly inside an element, in order. -/
def childrenNamed (node : Node) (name : String) : List Node :=
  node.children.filter (·.name? == some name)

mutual

/-- The characters of all texts inside a node, at any depth. -/
def content : Node → List Char
  | text content => content.toList
  | element _ _ children => contents children

/-- The characters of all texts inside some nodes. -/
def contents : List Node → List Char
  | [] => []
  | node :: others => content node ++ contents others

end

/-- The words inside a node with one space between neighbours; absent if there are none. -/
def words? (node : Node) : Option String :=
  match Text.normalize node.content with
  | [] => none
  | words => some (String.ofList words)

end Node

end RosInterface.Xml
