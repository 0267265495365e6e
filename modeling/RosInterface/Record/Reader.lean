import RosInterface.Json.Basic

/-! # Reading records

A record is read from an object by the names of its members, or from an array by their order. An
object may have further members, and may leave out what can be absent; an array is complete.
-/

namespace RosInterface.Record

/-- What was found for a member of a record. -/
inductive Member where
  | value (value : Json)
  /-- The object has no such member. -/
  | missing
  /-- The array ended before the member. -/
  | pastEnd

/-- The member of an object with a given name. -/
def ofObject (members : List (String × Json)) (name : String) : Member :=
  match members.lookup name with
  | some value => .value value
  | none => .missing

/-- The members of a record in a given order. -/
def members (names : List String) : Json → Option (List Member)
  | .object entries => some (names.map (ofObject entries))
  | .array values =>
    if names.length < values.length then none
    else
      some (values.map Member.value ++ List.replicate (names.length - values.length) .pastEnd)
  | _ => none

variable {α : Type}

/-- Reads a member that has to be there. -/
def required (read : Json → Option α) : Member → Option α
  | .value value => read value
  | _ => none

/-- Reads a member that can be absent or null. -/
def nullable (read : Json → Option α) : Member → Option (Option α)
  | .value .null => some none
  | .value value => (read value).map some
  | .missing => some none
  | .pastEnd => none

/-- Reads a member that has a value of its own where it is left out. -/
def orElse (fallback : α) (read : Json → Option α) : Member → Option α
  | .value value => read value
  | _ => some fallback

/-! ## Values -/

/-- Reads a text. -/
def string : Json → Option String
  | .string value => some value
  | _ => none

/-- Reads a truth value. -/
def flag : Json → Option Bool
  | .bool value => some value
  | _ => none

/-- Reads a natural number below 2^64. -/
def size : Json → Option Nat
  | .integer (.ofNat value) => if value < UInt64.size then some value else none
  | _ => none

/-- Reads an array. -/
def list (read : Json → Option α) : Json → Option (List α)
  | .array values => values.mapM read
  | _ => none

/-- Reads one of some words, which may be the name of a null member instead of a text. -/
def word (ofWord : String → Option α) : Json → Option α
  | .string value => ofWord value
  | .object [(value, .null)] => ofWord value
  | _ => none

end RosInterface.Record
