import RosInterface.MessageType.Family
import RosInterface.Proofs.Computation
import RosInterface.Proofs.Order

namespace RosInterface.Family

/-! # Families answer as if they remembered nothing

The nodes of a family compute their signatures and flattened definitions once and remember them.
`calls_transparent` says that this never shows in an answer: after any calls, each call is answered
as the recursion on linked types answers it, which computes everything anew.

* `Faithful` is the invariant of remembered signatures, as a history: a signature is that of the
  recursion, and it is remembered after those of all dependencies that the fields of its node look
  up. What a memo was at an earlier moment is an end of what it is now.
* A computation `Settles` on an outcome if it has this outcome from every faithful memo, leaves a
  faithful memo that has forgotten nothing, and, where it succeeds, remembers certain positions. A
  failure keeps what was computed before it, so that memos are part of every step.
* `Call` is what can be asked of the nodes of a family, and `Call.answer` what the recursion says.
-/

variable {family : Family} {earlier later nodes : List Node} {position : Nat}

/-! ## Nodes and their types -/

/-- The nodes that were added before a position, the one added last in front. -/
def before (family : Family) (position : Nat) : List Node :=
  family.newestFirst.drop (family.size - position)

/-- A field of the node at one position has the type of the node at another one, which is the first
dependency of this type that the node is linked to. -/
def LooksUp (family : Family) (user used : Nat) : Prop :=
  ∃ node, family.nodes[user]? = some node ∧ ∃ field ∈ node.descriptor.fields,
    field.type.isBuiltIn = false ∧
      findDependency (family.before user) node field.type = some used

theorem map_reference_linkNodes (nodes : List Node) :
    (linkNodes nodes).map (·.reference) = nodes.map (·.reference) := by
  induction nodes with
  | nil => rfl
  | cons node earlier ih => exact congrArg (node.reference :: ·) ih

theorem length_linkNodes (nodes : List Node) : (linkNodes nodes).length = nodes.length := by
  rw [← List.length_map, map_reference_linkNodes, List.length_map]

theorem length_types (family : Family) : family.types.length = family.size := by
  rw [types, List.length_reverse, length_linkNodes, size]

/-- The type of a node is not affected by nodes that are added later. -/
theorem exists_linkNodes_append (later earlier : List Node) :
    ∃ types, linkNodes (later ++ earlier) = types ++ linkNodes earlier := by
  induction later with
  | nil => exact ⟨[], rfl⟩
  | cons node later ih =>
    rcases ih with ⟨types, htypes⟩
    rw [List.cons_append, linkNodes, htypes]
    exact ⟨_ :: types, rfl⟩

/-- The signature at a position among some nodes, computed anew. -/
def plainSignature (nodes : List Node) (position : Nat) : Except TypeError String :=
  match (linkNodes nodes).reverse[position]? with
  | some type => type.signature
  | none => .error (.unknown "" TypeError.rootName)

theorem plainSignature_append (later : List Node) (hposition : position < earlier.length) :
    plainSignature (later ++ earlier) position = plainSignature earlier position := by
  rcases exists_linkNodes_append later earlier with ⟨types, htypes⟩
  unfold plainSignature
  rw [htypes, List.reverse_append, List.getElem?_append_left]
  rwa [List.length_reverse, length_linkNodes]

theorem plainSignature_cons_of_ne (node : Node) (hother : position ≠ earlier.length) :
    plainSignature (node :: earlier) position = plainSignature earlier position := by
  by_cases hbefore : position < earlier.length
  · exact plainSignature_append [node] hbefore
  · have hbeyond : ∀ nodes : List Node, nodes.length ≤ position →
        plainSignature nodes position = .error (.unknown "" TypeError.rootName) := by
      intro nodes hlength
      unfold plainSignature
      rw [List.getElem?_eq_none]
      rwa [List.length_reverse, length_linkNodes]
    rw [hbeyond (node :: earlier) (by rw [List.length_cons]; omega), hbeyond earlier (by omega)]

/-- The linked type that a reference names is that of the dependency which is looked up. -/
theorem firstOf_dependencies (earlier : List Node) (positions : List Nat) (type : TypeReference) :
    LinkedType.firstOf (LinkedType.signatures
        (positions.filterMap ((linkNodes earlier).reverse[·]?))) type =
      (positions.find? fun position =>
        match earlier.reverse[position]? with
        | some dependency => dependency.reference.sameType type
        | none => false).map (plainSignature earlier) := by
  have hreference : ∀ position : Nat, ((linkNodes earlier).reverse[position]?).map
      LinkedType.reference = (earlier.reverse[position]?).map Node.reference := by
    intro position
    rw [← List.getElem?_map, ← List.getElem?_map, List.map_reverse, List.map_reverse]
    exact congrArg (fun references : List TypeReference => references.reverse[position]?)
      (map_reference_linkNodes earlier)
  rw [LinkedType.signatures_eq_map, LinkedType.firstOf]
  induction positions with
  | nil => rfl
  | cons position rest ih =>
    have hhere := hreference position
    cases hnode : earlier.reverse[position]? with
    | none =>
      -- There is no such node, so that neither side has an entry for it.
      rw [hnode, Option.map_none, Option.map_eq_none_iff] at hhere
      rw [List.filterMap_cons_none hhere, List.find?_cons_of_neg (by simp [hnode]), ih]
    | some node =>
      rw [hnode, Option.map_some, Option.map_eq_some_iff] at hhere
      rcases hhere with ⟨linked, hlinked, hsame⟩
      have hidentity : linked.identity = node.reference.identity := congrArg (·.identity) hsame
      rw [List.filterMap_cons_some hlinked, List.map_cons, List.lookup_cons, hidentity]
      by_cases htype : node.reference.sameType type = true
      · have hkey : (type.identity == node.reference.identity) = true := by
          rw [BEq.comm]
          exact htype
        rw [List.find?_cons_of_pos (by simpa [hnode] using htype), hkey, Option.map_some,
          plainSignature, hlinked]
      · have hkey : (type.identity == node.reference.identity) = false := by
          rw [BEq.comm]
          exact eq_false_of_ne_true htype
        rw [List.find?_cons_of_neg (by simpa [hnode] using htype), hkey]
        exact ih

/-- The recursion looks signatures up among those of the nodes before the last one. -/
theorem plainSignature_last (node : Node) (earlier : List Node) :
    plainSignature (node :: earlier) earlier.length =
      Signature.compute (m := Id) node.reference.identity node.descriptor fun type =>
        (findDependency earlier node type).map (plainSignature earlier) := by
  have hlinked : (linkNodes (node :: earlier)).reverse[earlier.length]? =
      some (.mk node.reference node.descriptor
        (node.dependencies.filterMap ((linkNodes earlier).reverse[·]?))) := by
    simp [linkNodes, length_linkNodes]
  rw [plainSignature, hlinked]
  show LinkedType.signature _ = _
  rw [LinkedType.signature]
  congr 1
  funext type
  exact firstOf_dependencies earlier node.dependencies type

/-! ## Remembered signatures -/

/-- A signature is remembered for a position. -/
def Stored (memo : Memo) (position : Nat) : Prop :=
  (memo.lookup position).isSome = true

/-- A memo came about by remembering true signatures, each after those it is computed from. -/
inductive Faithful (family : Family) : Memo → Prop
  | empty : Faithful family []
  | remember {memo : Memo} {position : Nat} {sum : String} (earlier : Faithful family memo)
      (true_sum : plainSignature family.newestFirst position = .ok sum)
      (closed : ∀ used, family.LooksUp position used → Stored memo used) :
      Faithful family ((position, sum) :: memo)

theorem Stored.of_suffix {memo after : Memo} (hsuffix : memo <:+ after)
    (hstored : Stored memo position) : Stored after position := by
  rcases hsuffix with ⟨newer, rfl⟩
  rw [Stored, List.lookup_append, Option.isSome_or, Bool.or_eq_true]
  exact Or.inr hstored

theorem stored_cons_self (memo : Memo) (position : Nat) (sum : String) :
    Stored ((position, sum) :: memo) position := by
  rw [Stored, List.lookup_cons_self]
  rfl

namespace Faithful

variable {memo : Memo}

/-- What a memo was before is faithful as well. -/
theorem of_suffix (h : Faithful family memo) {before : Memo} (hsuffix : before <:+ memo) :
    Faithful family before := by
  induction h with
  | empty =>
    rw [List.suffix_nil.mp hsuffix]
    exact .empty
  | remember earlier true_sum closed ih =>
    rcases List.suffix_cons_iff.mp hsuffix with rfl | hsuffix
    · exact .remember earlier true_sum closed
    · exact ih hsuffix

theorem of_lookup (h : Faithful family memo) {sum : String}
    (hlookup : memo.lookup position = some sum) :
    plainSignature family.newestFirst position = .ok sum := by
  induction h with
  | empty => cases hlookup
  | @remember memo other otherSum earlier true_sum closed ih =>
    rw [lookup_cons_eq] at hlookup
    by_cases hsame : position = other
    · rw [if_pos hsame, Option.some.injEq] at hlookup
      rw [hsame, true_sum, hlookup]
    · rw [if_neg hsame] at hlookup
      exact ih hlookup

/-- With a node, the dependencies that its fields look up are remembered. -/
theorem stored_of_looksUp (h : Faithful family memo) {used : Nat} (hstored : Stored memo position)
    (hlooksUp : family.LooksUp position used) : Stored memo used := by
  induction h with
  | empty => cases hstored
  | @remember memo other sum earlier true_sum closed ih =>
    refine Stored.of_suffix (List.suffix_cons _ memo) ?_
    by_cases hsame : position = other
    · exact closed used (hsame ▸ hlooksUp)
    · rw [Stored, lookup_cons_eq, if_neg hsame] at hstored
      exact ih hstored

end Faithful

/-! ## Computations that settle -/

/-- From every faithful memo, the computation has the outcome and adds to the memo, so that it stays
faithful. If it succeeds, then the signatures at certain positions are remembered. -/
def Settles {α : Type} (family : Family) (computation : Memoized α)
    (outcome : ExceptT TypeError Id α) (positions : List Nat) : Prop :=
  ∀ memo, Faithful family memo →
    (computation.run memo).1 = outcome.run ∧ Faithful family (computation.run memo).2 ∧
      memo <:+ (computation.run memo).2 ∧
      ∀ value, outcome.run = .ok value →
        ∀ position ∈ positions, Stored (computation.run memo).2 position

namespace Settles

variable {α β : Type} {positions : List Nat}

theorem of_pure (value : α) : Settles family (pure value) (pure value) [] := by
  intro memo hmemo
  exact ⟨rfl, hmemo, List.suffix_refl memo, fun _ _ position hmem => by cases hmem⟩

theorem of_throw (error : TypeError) (positions : List Nat) :
    Settles (α := α) family (throw error) (throw error) positions := by
  intro memo hmemo
  exact ⟨rfl, hmemo, List.suffix_refl memo, fun value hok => by cases hok⟩

theorem bind {first : Memoized α} {next : α → Memoized β} {outcome : ExceptT TypeError Id α}
    {nextOutcome : α → ExceptT TypeError Id β} {others : List Nat}
    (hfirst : Settles family first outcome positions)
    (hnext : ∀ value, Settles family (next value) (nextOutcome value) others) :
    Settles family (first >>= next) (outcome >>= nextOutcome) (positions ++ others) := by
  intro memo hmemo
  rcases hfirst memo hmemo with ⟨hout, hfaithful, hgrows, hstored⟩
  rw [run_bind]
  rcases hrun : first.run memo with ⟨error | value, after⟩
  · rw [hrun] at hout hfaithful hgrows
    obtain rfl : outcome = Except.error error := hout.symm
    exact ⟨rfl, hfaithful, hgrows, fun value hok => by cases hok⟩
  · rw [hrun] at hout hfaithful hgrows hstored
    obtain rfl : outcome = Except.ok value := hout.symm
    rcases hnext value after hfaithful with ⟨hout', hfaithful', hgrows', hstored'⟩
    refine ⟨hout', hfaithful', hgrows.trans hgrows', fun result hok position hmem => ?_⟩
    rcases List.mem_append.mp hmem with hmem | hmem
    · exact Stored.of_suffix hgrows' (hstored value rfl position hmem)
    · exact hstored' result hok position hmem

theorem mapM {members : List α} {step : α → Memoized β} {outcome : α → ExceptT TypeError Id β}
    {positions : α → List Nat}
    (hstep : ∀ member, Settles family (step member) (outcome member) (positions member)) :
    Settles family (members.mapM step) (members.mapM outcome) (members.flatMap positions) := by
  induction members with
  | nil => exact of_pure []
  | cons first rest ih =>
    rw [List.mapM_cons, List.mapM_cons, List.flatMap_cons]
    refine (hstep first).bind fun value => ?_
    rw [← List.append_nil (rest.flatMap positions)]
    exact ih.bind fun values => of_pure (value :: values)

end Settles

/-! ## Signatures -/

/-- Where the signatures at some positions settle, so does one that looks them up, and with them
remembered. -/
theorem compute_settles (owner : TypeIdentity) (descriptor : Descriptor)
    (found : TypeReference → Option Nat) {sign : Nat → Memoized String}
    {plain : Nat → ExceptT TypeError Id String}
    (hsign : ∀ position, Settles family (sign position) (plain position) [position]) :
    Settles family
      (Signature.compute owner descriptor fun type => (found type).map sign)
      (Signature.compute owner descriptor fun type => (found type).map plain)
      (descriptor.fields.flatMap fun field =>
        if field.type.isBuiltIn then [] else (found field.type).toList) := by
  have hline : ∀ field : Field, Settles family
      (Signature.fieldLine owner (fun type => (found type).map sign) field)
      (Signature.fieldLine owner (fun type => (found type).map plain) field)
      (if field.type.isBuiltIn then [] else (found field.type).toList) := by
    intro field
    unfold Signature.fieldLine
    beta_reduce
    cases field.type.isBuiltIn with
    | true => exact .of_pure field.text
    | false =>
      cases found field.type with
      | none => exact .of_throw _ []
      | some position =>
        rw [← List.append_nil (Option.toList _)]
        exact (hsign position).bind fun sum => .of_pure (sum ++ " " ++ field.identifier)
  have hlast : ∀ lines : List String, Settles family
      (ExceptT.mk (pure (Signature.ofLines owner lines)))
      (ExceptT.mk (pure (Signature.ofLines owner lines))) [] := by
    intro lines
    cases Signature.ofLines owner lines with
    | ok sum => exact .of_pure sum
    | error error => exact .of_throw error []
  unfold Signature.compute Signature.lines
  rw [← List.append_nil (List.flatMap _ _), ← List.append_nil (List.flatMap _ _)]
  exact Settles.bind ((Settles.mapM hline).bind fun fieldLines => .of_pure _) hlast

/-- Nothing is computed for what is remembered, and a failure is not remembered. -/
theorem run_remember (position : Nat) (computation : Memoized String) (memo : Memo) :
    (remember position computation).run memo =
      match memo.lookup position with
      | some sum => (.ok sum, memo)
      | none =>
        match computation.run memo with
        | (.ok sum, after) => (.ok sum, (position, sum) :: after)
        | (.error error, after) => (.error error, after) := by
  unfold remember
  rw [run_bind]
  show (match memo.lookup position with
    | some sum => _
    | none => _ : Memoized String).run memo = _
  cases memo.lookup position with
  | some sum => rfl
  | none =>
    rw [run_bind]
    rcases computation.run memo with ⟨error | sum, after⟩
    · rfl
    · rfl

/-- What computes a signature, once the signatures are remembered that its fields look up, may
remember the result. -/
theorem remember_settles {computation : Memoized String} {outcome : ExceptT TypeError Id String}
    {positions : List Nat} (hcomputation : Settles family computation outcome positions)
    (houtcome : outcome.run = plainSignature family.newestFirst position)
    (hlinks : ∀ used, family.LooksUp position used → used ∈ positions) :
    Settles family (remember position computation) outcome [position] := by
  intro memo hmemo
  rw [run_remember]
  cases hlookup : memo.lookup position with
  | some sum =>
    refine ⟨(hmemo.of_lookup hlookup).symm.trans houtcome.symm, hmemo, List.suffix_refl memo, ?_⟩
    intro value _ other hmem
    rw [List.mem_singleton.mp hmem, Stored, hlookup]
    rfl
  | none =>
    rcases hcomputation memo hmemo with ⟨hout, hfaithful, hgrows, hstored⟩
    rcases hafter : computation.run memo with ⟨error | sum, after⟩
    · rw [hafter] at hout hfaithful hgrows
      exact ⟨hout, hfaithful, hgrows, fun value hok => by rw [← hout] at hok; cases hok⟩
    · rw [hafter] at hout hfaithful hgrows hstored
      refine ⟨hout, .remember hfaithful (houtcome.symm.trans hout.symm) ?_,
        hgrows.trans (List.suffix_cons _ after), ?_⟩
      · intro used hlooksUp
        exact hstored sum hout.symm used (hlinks used hlooksUp)
      · intro value _ other hmem
        rw [List.mem_singleton.mp hmem]
        exact stored_cons_self after position sum

/-- The signature at each position settles on that of the recursion. -/
theorem signatureAt_settles (hnodes : family.newestFirst = later ++ nodes) (position : Nat) :
    Settles family (signatureAt nodes position) (plainSignature nodes position) [position] := by
  induction nodes generalizing later position with
  | nil => exact .of_throw _ [position]
  | cons node earlier ih =>
    have hearlier : family.newestFirst = (later ++ [node]) ++ earlier := by
      rw [hnodes, List.append_assoc, List.singleton_append]
    unfold signatureAt
    split
    case isTrue hlast =>
      subst hlast
      have hbefore : family.before earlier.length = earlier := by
        rw [before, size, hearlier, List.length_append, Nat.add_sub_cancel, List.drop_left]
      have hnode : family.nodes[earlier.length]? = some node := by
        rw [Family.nodes, hnodes]
        simp
      rw [plainSignature_last]
      refine remember_settles (compute_settles _ _ _ fun position => ih hearlier position) ?_ ?_
      · refine (plainSignature_last node earlier).symm.trans ?_
        rw [hnodes, plainSignature_append later (by simp)]
      · -- What the fields look up is what has been computed for them.
        intro used hlooksUp
        rcases hlooksUp with ⟨user, huser, field, hfield, hmessage, hfound⟩
        obtain rfl : user = node := by simpa [hnode] using huser.symm
        rw [hbefore] at hfound
        refine List.mem_flatMap.mpr ⟨field, hfield, ?_⟩
        rw [hmessage, hfound]
        simp
    case isFalse hother =>
      rw [plainSignature_cons_of_ne node hother]
      exact ih hearlier position

/-! ## Calls -/

/-- The type of a node. -/
def typeAt (family : Family) (position : Fin family.size) : LinkedType :=
  family.types.get (position.cast (length_types family).symm)

/-- What can be asked of the nodes of a family. -/
inductive Call (family : Family) where
  | signature (position : Fin family.size)
  | equal (left right : Fin family.size)
  | hashKey (position : Fin family.size)
  | definition (position : Fin family.size)

/-- What a node answers. -/
inductive Answer where
  | signature (outcome : Except TypeError String)
  | equal (answer : Bool)
  | hashKey (key : Option (TypeIdentity × Option String))
  | definition (text : String)

/-- The answer to a call by the recursion on linked types. -/
def Call.answer : Call family → Answer
  | .signature position => .signature (family.typeAt position).signature
  | .equal left right => .equal ((family.typeAt left).equal (family.typeAt right))
  | .hashKey position => .hashKey (some (family.typeAt position).hashKey)
  | .definition position => .definition (family.typeAt position).definition

/-- The answer to a call by nodes that remember. -/
def Call.perform : Call family → StateM Cells Answer
  | .signature position => .signature <$> onSignatures (family.signatureOutcome position)
  | .equal left right => .equal <$> family.recallEqual left right
  | .hashKey position => .hashKey <$> onSignatures (family.hashKey position)
  | .definition position => .definition <$> family.recallDefinition position

theorem type?_eq (position : Fin family.size) :
    family.type? position = some (family.typeAt position) := by
  have hlt : (position : Nat) < family.types.length := by
    rw [length_types]
    exact position.isLt
  exact List.getElem?_eq_getElem hlt

theorem plainSignature_eq (position : Fin family.size) :
    plainSignature family.newestFirst position = (family.typeAt position).signature := by
  have htype : (linkNodes family.newestFirst).reverse[(position : Nat)]? =
      some (family.typeAt position) := type?_eq position
  rw [plainSignature, htype]

theorem definition_eq (position : Fin family.size) :
    family.definition position = (family.typeAt position).definition := by
  rw [definition, type?_eq]
  rfl

variable {start : Memo}

/-- A faithful memo that has come about from an earlier one. -/
structure FaithfulSince (family : Family) (start memo : Memo) : Prop where
  faithful : Faithful family memo
  grown : start <:+ memo

/-- All that the cells hold is true, and nothing has been forgotten. -/
structure Cells.Faithful (family : Family) (start : Memo) (cells : Cells) : Prop where
  signatures : FaithfulSince family start cells.signatures
  definitions : ∀ position text, cells.definitions.lookup position = some text →
    text = family.definition position

theorem signatureOutcome_yields (position : Fin family.size) :
    Yields (FaithfulSince family start) (family.signatureOutcome position)
      (family.typeAt position).signature := by
  rintro memo ⟨hmemo, hstart⟩
  rcases signatureAt_settles (List.nil_append family.newestFirst).symm position memo hmemo with
    ⟨hout, hfaithful, hgrows, -⟩
  exact ⟨hout.trans (plainSignature_eq position), hfaithful, hstart.trans hgrows⟩

theorem hashKey_yields (position : Fin family.size) :
    Yields (FaithfulSince family start) (family.hashKey position)
      (some (family.typeAt position).hashKey) := by
  unfold hashKey
  rw [type?_eq]
  exact (signatureOutcome_yields position).bind (.of_pure _)

theorem onSignatures_yields {α : Type} {computation : StateM Memo α} {value : α}
    (h : Yields (FaithfulSince family start) computation value) :
    Yields (Cells.Faithful family start) (onSignatures computation) value := by
  intro cells hcells
  rcases h cells.signatures hcells.signatures with ⟨hvalue, hfaithful⟩
  exact ⟨hvalue, hfaithful, hcells.definitions⟩

theorem recallDefinition_yields (position : Fin family.size) :
    Yields (Cells.Faithful family start) (family.recallDefinition position)
      (family.typeAt position).definition := by
  intro cells hcells
  have hrun : (family.recallDefinition position).run cells =
      match cells.definitions.lookup (position : Nat) with
      | some text => (text, cells)
      | none => (family.definition position, { cells with
          definitions := (↑position, family.definition position) :: cells.definitions }) := by
    show (match cells.definitions.lookup (position : Nat) with
      | some text => _
      | none => _ : StateM Cells String).run cells = _
    cases cells.definitions.lookup (position : Nat) with
    | some text => rfl
    | none => rfl
  rw [hrun]
  cases hlookup : cells.definitions.lookup (position : Nat) with
  | some text =>
    exact ⟨(hcells.definitions _ text hlookup).trans (definition_eq position), hcells⟩
  | none =>
    refine ⟨definition_eq position, hcells.signatures, ?_⟩
    intro other text hother
    rw [lookup_cons_eq] at hother
    by_cases hsame : other = position
    · rw [if_pos hsame, Option.some.injEq] at hother
      rw [hsame, hother]
    · rw [if_neg hsame] at hother
      exact hcells.definitions other text hother

/-- Nodes are equal if their types are, for all ways of asking that yield the true signatures and
definitions. -/
theorem equalBy_yields {σ : Type} {inv : σ → Prop}
    {signatureOf : Nat → StateM σ (Except TypeError String)} {definitionOf : Nat → StateM σ String}
    (hsignature : ∀ position : Fin family.size,
      Yields inv (signatureOf position) (family.typeAt position).signature)
    (hdefinition : ∀ position : Fin family.size,
      Yields inv (definitionOf position) (family.typeAt position).definition)
    (left right : Fin family.size) :
    Yields inv (family.equalBy signatureOf definitionOf left right)
      ((family.typeAt left).equal (family.typeAt right)) := by
  unfold equalBy LinkedType.equal
  simp only [type?_eq]
  cases (family.typeAt left).reference.sameType (family.typeAt right).reference with
  | false => exact .of_pure false
  | true =>
    refine (hsignature left).bind ((hsignature right).bind ?_)
    rw [Bool.true_and]
    rcases (family.typeAt left).signature with error | x <;>
      rcases (family.typeAt right).signature with otherError | y
    · exact .of_pure _
    · exact .of_pure _
    · exact .of_pure _
    · show Yields inv (if x == y then _ else _) (x == y && _)
      cases x == y with
      | false => exact .of_pure false
      | true => exact (hdefinition left).bind ((hdefinition right).bind (.of_pure _))

theorem equal_yields (left right : Fin family.size) :
    Yields (FaithfulSince family start) (family.equal left right)
      ((family.typeAt left).equal (family.typeAt right)) := by
  refine equalBy_yields signatureOutcome_yields (fun position => ?_) left right
  rw [definition_eq]
  exact .of_pure _

theorem recallEqual_yields (left right : Fin family.size) :
    Yields (Cells.Faithful family start) (family.recallEqual left right)
      ((family.typeAt left).equal (family.typeAt right)) := by
  refine equalBy_yields (fun position => ?_) recallDefinition_yields left right
  exact onSignatures_yields (signatureOutcome_yields position)

theorem perform_yields (call : Call family) :
    Yields (Cells.Faithful family start) call.perform call.answer := by
  cases call with
  | signature position => exact (onSignatures_yields (signatureOutcome_yields position)).map _
  | equal left right => exact (recallEqual_yields left right).map _
  | hashKey position => exact (onSignatures_yields (hashKey_yields position)).map _
  | definition position => exact (recallDefinition_yields position).map _

/-- After any calls, every call has been answered as the recursion on linked types answers it, and
so would be a comparison that remembers signatures only. Further calls put signatures in front of
those that are remembered, so that a memo of an earlier moment is an end of the present one. At each
such moment, a remembered signature is that of the recursion, none is remembered for a type that has
no signature, and with a node the dependencies are remembered that its fields look up. -/
theorem calls_transparent (calls : List (Call family)) :
    let run := (calls.mapM Call.perform).run {}
    run.1 = calls.map Call.answer ∧
      (∀ left right : Fin family.size, ((family.equal left right).run run.2.signatures).1 =
        (family.typeAt left).equal (family.typeAt right)) ∧
      (∀ further : List (Call family),
        run.2.signatures <:+ ((further.mapM Call.perform).run run.2).2.signatures) ∧
      ∀ memo, memo <:+ run.2.signatures → ∀ position : Fin family.size,
        (∀ sum, memo.lookup (position : Nat) = some sum →
          (family.typeAt position).signature = .ok sum) ∧
        (∀ error, (family.typeAt position).signature = .error error →
          memo.lookup (position : Nat) = none) ∧
        ∀ used, Stored memo position → family.LooksUp position used → Stored memo used := by
  intro run
  have hempty : Cells.Faithful family [] {} := by
    refine ⟨⟨.empty, List.suffix_refl []⟩, ?_⟩
    intro position text hlookup
    cases hlookup
  rcases Yields.mapM perform_yields {} hempty with ⟨hanswers, hcells⟩
  have hfaithful : Faithful family run.2.signatures := hcells.signatures.faithful
  refine ⟨hanswers, ?_, ?_, ?_⟩
  · intro left right
    exact (equal_yields left right _ hcells.signatures).1
  · intro further
    -- The invariant is that nothing is forgotten which is remembered now.
    have hnow : Cells.Faithful family run.2.signatures run.2 :=
      ⟨⟨hfaithful, List.suffix_refl _⟩, hcells.definitions⟩
    exact (Yields.mapM perform_yields run.2 hnow).2.signatures.grown
  · intro memo hmemo position
    have hbefore : Faithful family memo := hfaithful.of_suffix hmemo
    have htrue : ∀ sum, memo.lookup (position : Nat) = some sum →
        (family.typeAt position).signature = .ok sum := by
      intro sum hlookup
      rw [← plainSignature_eq]
      exact hbefore.of_lookup hlookup
    refine ⟨htrue, ?_, ?_⟩
    · intro error herror
      cases hlookup : memo.lookup (position : Nat) with
      | none => rfl
      | some sum =>
        rw [htrue sum hlookup] at herror
        cases herror
    · intro used
      exact hbefore.stored_of_looksUp

/-- A type whose second field is of a type that is not linked. -/
def brokenFamily : Family :=
  ⟨[⟨.message "a" "Outer", ⟨[.field ⟨.message "a" "Inner", "x"⟩, .field ⟨.message "a" "None", "y"⟩],
      ""⟩, [0]⟩, ⟨.message "a" "Inner", default, []⟩]⟩

/-- The signature of the first field stays remembered, although there is none of the whole. -/
example : ((brokenFamily.signature 1).run []).1.toOption = none ∧
    ((brokenFamily.signature 1).run []).2.map Prod.fst = [0] := by
  decide +kernel

end RosInterface.Family
