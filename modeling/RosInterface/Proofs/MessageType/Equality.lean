import RosInterface.Proofs.Family

namespace RosInterface

/-! # Equality of linked types

Two types are compared by their signatures and flattened definitions where both have a signature,
and by what they declare where neither has one. That this is an equivalence is not seen from either
criterion alone; it holds because both are read off the `Essence` of a type, and equal types are
those with equal names and essences (`equal_iff`). What a hash may depend on is read off them too.

Nodes of a family answer comparisons as their types do, whatever they remember. So the laws hold of
comparisons that are made at different moments (`equality_lawful`).
-/

namespace LinkedType

variable {a b : LinkedType}

/-- What types of one name are told apart by. -/
inductive Essence where
  /-- The signature and the flattened definition of a type that has a signature. -/
  | signed (sum definition : String)
  /-- The declarations and the names of the dependencies of a type that has none. -/
  | declared (descriptor : Descriptor) (dependencies : List TypeIdentity)

/-- What a type is, its name apart. -/
def essence (type : LinkedType) : Essence :=
  match type.signature with
  | .ok sum => .signed sum type.definition
  | .error _ => .declared type.descriptor (type.dependencies.map identity)

/-- The signature that belongs to an essence, if there is one. -/
def Essence.sum? : Essence → Option String
  | signed sum _ => some sum
  | declared _ _ => none

theorem sum?_essence (type : LinkedType) : type.essence.sum? = type.signature.toOption := by
  rw [essence]
  cases type.signature with
  | ok sum => rfl
  | error error => rfl

theorem agree_signatures_iff :
    agree a b a.signature b.signature = true ↔ a.essence = b.essence := by
  rw [essence, essence]
  cases a.signature <;> cases b.signature <;> simp [agree]

theorem equal_iff : a.equal b = true ↔ a.identity = b.identity ∧ a.essence = b.essence := by
  rw [equal, Bool.and_eq_true, agree_signatures_iff, TypeReference.sameType, beq_iff_eq]
  rfl

theorem hashKey_eq (type : LinkedType) : type.hashKey = (type.identity, type.essence.sum?) := by
  rw [hashKey, sum?_essence]

end LinkedType

namespace Family

variable {family : Family}

/-- What a question to the nodes is answered after some calls. -/
def answerAfter {α : Type} (calls : List (Call family)) (question : StateM Cells α) : α :=
  (question.run ((calls.mapM Call.perform).run {}).2).1

/-- A comparison after some calls finds two nodes equal. -/
def EqualAfter (calls : List (Call family)) (left right : Fin family.size) : Prop :=
  answerAfter calls (family.recallEqual left right) = true

instance (calls : List (Call family)) (left right : Fin family.size) :
    Decidable (EqualAfter calls left right) :=
  inferInstanceAs (Decidable (_ = true))

/-- The nodes remember nothing false at first, and no call changes that. -/
theorem faithful_after (calls : List (Call family)) :
    Cells.Faithful family [] ((calls.mapM Call.perform).run {}).2 := by
  refine (Yields.mapM perform_yields {} ⟨⟨.empty, List.suffix_refl []⟩, ?_⟩).2
  intro position text hlookup
  cases hlookup

/-- What is answered does not depend on the calls before. -/
theorem answerAfter_eq {α : Type} {question : StateM Cells α} {value : α}
    (hquestion : Yields (Cells.Faithful family []) question value) (calls : List (Call family)) :
    answerAfter calls question = value :=
  (hquestion _ (faithful_after calls)).1

theorem equalAfter_iff (calls : List (Call family)) (left right : Fin family.size) :
    EqualAfter calls left right ↔
      (family.typeAt left).identity = (family.typeAt right).identity ∧
        (family.typeAt left).essence = (family.typeAt right).essence := by
  rw [EqualAfter, answerAfter_eq (recallEqual_yields left right), LinkedType.equal_iff]

theorem hashKeyAfter_eq (calls : List (Call family)) (position : Fin family.size) :
    answerAfter calls (onSignatures (family.hashKey position)) =
      some ((family.typeAt position).identity, (family.typeAt position).essence.sum?) := by
  rw [answerAfter_eq (onSignatures_yields (hashKey_yields position)), LinkedType.hashKey_eq]

theorem signatureAfter_eq (calls : List (Call family)) (position : Fin family.size) :
    answerAfter calls (onSignatures (family.signatureOutcome position)) =
      (family.typeAt position).signature :=
  answerAfter_eq (onSignatures_yields (signatureOutcome_yields position)) calls

theorem definitionAfter_eq (calls : List (Call family)) (position : Fin family.size) :
    answerAfter calls (family.recallDefinition position) = (family.typeAt position).definition :=
  answerAfter_eq (recallDefinition_yields position) calls

/-- Comparing nodes is reflexive, symmetric and transitive, nodes that compare as equal have equal
hashes, and nodes that have signatures compare as equal if and only if their names, their signatures
and their flattened definitions agree. All this holds between answers that are given after any calls
each, and so for whatever the nodes remember by then. -/
theorem equality_lawful (family : Family) (first second third : List (Call family))
    (a b c : Fin family.size) :
    EqualAfter first a a ∧
      (EqualAfter first a b → EqualAfter second b a) ∧
      (EqualAfter first a b → EqualAfter second b c → EqualAfter third a c) ∧
      (EqualAfter first a b → answerAfter second (onSignatures (family.hashKey a)) =
        answerAfter third (onSignatures (family.hashKey b))) ∧
      ∀ sum otherSum,
        answerAfter first (onSignatures (family.signatureOutcome a)) = .ok sum →
        answerAfter second (onSignatures (family.signatureOutcome b)) = .ok otherSum →
        (EqualAfter third a b ↔
          (family.typeAt a).identity = (family.typeAt b).identity ∧ sum = otherSum ∧
            answerAfter first (family.recallDefinition a) =
              answerAfter second (family.recallDefinition b)) := by
  refine ⟨(equalAfter_iff first a a).mpr ⟨rfl, rfl⟩, ?symmetric, ?transitive, ?hashes, ?signed⟩
  case symmetric =>
    rw [equalAfter_iff, equalAfter_iff]
    rintro ⟨hname, hessence⟩
    exact ⟨hname.symm, hessence.symm⟩
  case transitive =>
    rw [equalAfter_iff, equalAfter_iff, equalAfter_iff]
    rintro ⟨hab, hessence⟩ ⟨hbc, hessence'⟩
    exact ⟨hab.trans hbc, hessence.trans hessence'⟩
  case hashes =>
    rw [equalAfter_iff, hashKeyAfter_eq, hashKeyAfter_eq]
    rintro ⟨hname, hessence⟩
    rw [hname, hessence]
  case signed =>
    -- Signatures were asked for at other moments than the comparison, but are those of the types.
    intro sum otherSum hsum hotherSum
    rw [signatureAfter_eq] at hsum hotherSum
    rw [equalAfter_iff, definitionAfter_eq, definitionAfter_eq, LinkedType.essence,
      LinkedType.essence, hsum, hotherSum, LinkedType.Essence.signed.injEq]

/-- Two types of one name that differ in the array bound of their references, and two types of
another name, each of which has a field of the former and one of a type that is not linked. -/
def twinFamily : Family :=
  let outer (inner : Nat) : Node :=
    ⟨.message "a" "Outer", ⟨[.field ⟨.message "a" "Inner", "x"⟩,
      .field ⟨.message "a" "None", "y"⟩], ""⟩, [inner]⟩
  ⟨[outer 1, outer 0, ⟨(TypeReference.message "a" "Inner").toArray none, default, []⟩,
    ⟨.message "a" "Inner", default, []⟩]⟩

/-- Twins are equal both with a signature and without one, and nothing else is. -/
example :
    let nodes := List.finRange twinFamily.size
    nodes.map (fun left => nodes.map fun right =>
        decide (EqualAfter (nodes.map Call.hashKey) left right)) =
      [[true, true, false, false], [true, true, false, false], [false, false, true, true],
        [false, false, true, true]] := by
  decide +kernel

end Family

end RosInterface
