/-! # TOML values

Texts, truth values, numbers, moments, arrays and tables. Numbers and moments are kept as they are
written. Tables remember how they came to be, because that decides what may still be added to them.
-/

namespace RosInterface.Toml

/-- How a table came to be. -/
inductive Origin where
  /-- Written between braces; nothing can be added. -/
  | inline
  /-- Opened by its own header. -/
  | header
  /-- Named inside the header of a table below it. -/
  | passage
  /-- Named inside the dotted key of an entry. -/
  | dotted
deriving DecidableEq, Repr

/-- A value. -/
inductive Value where
  | text (value : String)
  | flag (value : Bool)
  | number (word : String)
  /-- A date, a time of day, or both. -/
  | moment (word : String)
  | array (members : List Value)
  | table (origin : Origin) (entries : List (String × Value))
  /-- An array of tables, each opened by a header of its own; the last one comes first. -/
  | tables (members : List (List (String × Value)))

/-- The entries of a table in the order in which their keys first appeared. -/
abbrev Entries :=
  List (String × Value)

/-- Replaces the value of a key, or adds one at the end. -/
def putEntry (key : String) (value : Value) : Entries → Entries
  | [] => [(key, value)]
  | (other, old) :: rest =>
    if other = key then (key, value) :: rest else (other, old) :: putEntry key value rest

/-- Changes the entries of the table that a key of a header path names. In an array of tables that
is its last one. -/
def enter (change : Entries → Option Entries) : Option Value → Option Value
  | none => (change []).map (.table .passage)
  | some (.table .inline _) => none
  | some (.table origin entries) => (change entries).map (.table origin)
  | some (.tables (last :: others)) => (change last).map fun last => .tables (last :: others)
  | some _ => none

/-- Changes the entries of the table at the end of a header path, whose last key may be subject to
rules of its own. -/
def changeAt (last : (Entries → Option Entries) → Option Value → Option Value)
    (change : Entries → Option Entries) : List String → Entries → Option Entries
  | [], entries => change entries
  | [key], entries =>
    (last change (entries.lookup key)).map fun value => putEntry key value entries
  | key :: path, entries =>
    (enter (changeAt last change path) (entries.lookup key)).map fun value =>
      putEntry key value entries

/-- Opens the table of a header, which has to be new or a mere passage so far. -/
def openTable (change : Entries → Option Entries) : Option Value → Option Value
  | none => (change []).map (.table .header)
  | some (.table .passage entries) => (change entries).map (.table .header)
  | some _ => none

/-- Opens a further table of an array of tables. -/
def openMember (change : Entries → Option Entries) : Option Value → Option Value
  | none => (change []).map fun entries => .tables [entries]
  | some (.tables members) => (change []).map fun entries => .tables (entries :: members)
  | some _ => none

/-- Changes the table of a header that was opened before. -/
def reopen (change : Entries → Option Entries) : Option Value → Option Value
  | some (.table .header entries) => (change entries).map (.table .header)
  | some (.tables (last :: others)) => (change last).map fun last => .tables (last :: others)
  | _ => none

/-- Assigns a value to a dotted key, which has to be new. The tables on its way have to be new or
made by dotted keys. -/
def assign (value : Value) : List String → Entries → Option Entries
  | [], _ => none
  | [key], entries =>
    match entries.lookup key with
    | none => some (putEntry key value entries)
    | some _ => none
  | key :: path, entries =>
    match entries.lookup key with
    | none => (assign value path []).map fun inner => putEntry key (.table .dotted inner) entries
    | some (.table .dotted inner) =>
      (assign value path inner).map fun inner => putEntry key (.table .dotted inner) entries
    | some _ => none

/-- One statement of a document. -/
inductive Statement where
  | header (path : List String)
  | memberHeader (path : List String)
  | assignment (key : List String) (value : Value)

/-- The meaning of statements in a document whose current table is at `path`, given what was
collected before them. -/
def collect : List Statement → List String → Entries → Option Entries
  | [], _, entries => some entries
  | .header path :: rest, _, entries =>
    (changeAt openTable some path entries).bind (collect rest path)
  | .memberHeader path :: rest, _, entries =>
    (changeAt openMember some path entries).bind (collect rest path)
  | .assignment key value :: rest, path, entries =>
    (changeAt reopen (assign value key) path entries).bind (collect rest path)

end RosInterface.Toml
