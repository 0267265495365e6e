/-! # Stages of a workspace

A workspace is discovered, parsed, filtered and ordered, in this sequence. Some operations need an
earlier stage to be reached; a new package leads back to the beginning.
-/

namespace RosInterface

/-- How far a workspace has come. -/
inductive Stage where
  | discovered
  | parsed
  | filtered
  | ordered
deriving DecidableEq, Repr, Inhabited

namespace Stage

/-- The written form of a stage. -/
def text : Stage → String
  | discovered => "Discovered"
  | parsed => "MessagesParsed"
  | filtered => "Filtered"
  | ordered => "Ordered"

/-- The place of a stage in the sequence. -/
def rank : Stage → Nat
  | discovered => 0
  | parsed => 1
  | filtered => 2
  | ordered => 3

/-- Stages are compared by their places. -/
def compare (a b : Stage) : Ordering :=
  Ord.compare a.rank b.rank

/-- Whether the definition files have been read. -/
def hasParsed (stage : Stage) : Bool :=
  parsed.rank ≤ stage.rank

/-- Whether packages have been selected. -/
def canOrder (stage : Stage) : Bool :=
  filtered.rank ≤ stage.rank

/-- Whether a workspace may go from one stage to another. -/
def canBecome : Stage → Stage → Bool
  | discovered, parsed => true
  | parsed, filtered => true
  | filtered, ordered => true
  | filtered, filtered => true
  | ordered, filtered => true
  | ordered, ordered => true
  | parsed, discovered => true
  | filtered, discovered => true
  | ordered, discovered => true
  | _, _ => false

end Stage

end RosInterface
