/-! # Sorted lists without repetitions

The one representation of a set that two different insertion orders share.
-/

namespace RosInterface.Sorted

variable {α : Type}

/-- Inserts a value into a sorted list, which already holds it or gains it in its place. -/
def insert (compare : α → α → Ordering) (value : α) : List α → List α
  | [] => [value]
  | first :: rest =>
    match compare value first with
    | .lt => value :: first :: rest
    | .eq => first :: rest
    | .gt => first :: insert compare value rest

/-- The values of a list in order, each once. -/
def ofList (compare : α → α → Ordering) (values : List α) : List α :=
  values.foldl (fun sorted value => insert compare value sorted) []

/-- Inserts a name into a sorted list of names. -/
def insertName (name : String) (names : List String) : List String :=
  insert Ord.compare name names

/-- The names of a list by code point, each once. -/
def names (names : List String) : List String :=
  ofList Ord.compare names

end RosInterface.Sorted
