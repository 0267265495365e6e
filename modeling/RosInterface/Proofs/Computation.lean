import Mathlib.Data.List.Basic
import Mathlib.Data.List.Forall2

namespace RosInterface

/-! # Computations that keep an invariant

A computation with a state `Computes` an outcome if it has this outcome from every state that an
invariant holds of, and restores the invariant. What such computations are put together from
decides what they compute, so that a claim about outcomes needs no talk of states.
-/

variable {ε σ α β : Type}

/-- From every state of the invariant, the computation has the outcome and ends in such a state. -/
def Computes (inv : σ → Prop) (computation : ExceptT ε (StateM σ) α) (outcome : Except ε α) :
    Prop :=
  ∀ state, inv state →
    (computation.run state).1 = outcome ∧ inv (computation.run state).2

/-- A computation goes on where its first part succeeds, and ends where that part fails. -/
theorem run_bind (first : ExceptT ε (StateM σ) α) (next : α → ExceptT ε (StateM σ) β) (state : σ) :
    (first >>= next).run state =
      match first.run state with
      | (.ok value, after) => (next value).run after
      | (.error error, after) => (.error error, after) := by
  have hrun : (first >>= next).run state =
      match first.run state with
      | (result, after) => ExceptT.bindCont next result after := rfl
  rw [hrun]
  rcases first.run state with ⟨error | value, after⟩
  · rfl
  · rfl

/-- A computation that succeeds has parts that do, one after the other. -/
theorem run_bind_eq_ok {first : ExceptT ε (StateM σ) α} {next : α → ExceptT ε (StateM σ) β}
    {state after : σ} {result : β} (h : (first >>= next).run state = (.ok result, after)) :
    ∃ value between, first.run state = (.ok value, between) ∧
      (next value).run between = (.ok result, after) := by
  rw [run_bind] at h
  rcases hfirst : first.run state with ⟨error | value, between⟩
  · rw [hfirst] at h
    cases h
  · rw [hfirst] at h
    exact ⟨value, between, rfl, h⟩

/-- What a list of computations yields, each member yielded at its turn. -/
theorem exists_of_mapM_run_eq_ok {members : List α} {step : α → ExceptT ε (StateM σ) β}
    {state after : σ} {values : List β}
    (h : (members.mapM step).run state = (.ok values, after)) {value : β}
    (hvalue : value ∈ values) :
    ∃ member ∈ members, ∃ before between, (step member).run before = (.ok value, between) := by
  induction members generalizing state values with
  | nil =>
    cases h
    cases hvalue
  | cons first rest ih =>
    rw [List.mapM_cons] at h
    rcases run_bind_eq_ok h with ⟨head, between, hfirst, hrest⟩
    rcases run_bind_eq_ok hrest with ⟨tail, last, htail, hlast⟩
    cases hlast
    rcases List.mem_cons.mp hvalue with rfl | hmem
    · exact ⟨first, List.mem_cons_self, state, between, hfirst⟩
    · rcases ih htail hmem with ⟨member, hmember, hstep⟩
      exact ⟨member, List.mem_cons_of_mem first hmember, hstep⟩

/-- A handler runs where the part that it watches over fails. -/
theorem run_tryCatch (part : ExceptT ε (StateM σ) α) (handler : ε → ExceptT ε (StateM σ) α)
    (state : σ) :
    (tryCatch part handler : ExceptT ε (StateM σ) α).run state =
      match part.run state with
      | (.ok value, after) => (.ok value, after)
      | (.error error, after) => (handler error).run after := by
  have hrun : (tryCatch part handler : ExceptT ε (StateM σ) α).run state =
      match part.run state with
      | (result, after) =>
        (match result with
          | .ok value => pure (.ok value)
          | .error error => handler error : StateM σ (Except ε α)).run after := rfl
  rw [hrun]
  rcases part.run state with ⟨error | value, after⟩
  · rfl
  · rfl

/-- An error that is thrown again in other words. -/
theorem run_tryCatch_throw (part : ExceptT ε (StateM σ) α) (wrap : ε → ε) (state : σ) :
    (tryCatch part fun error => throw (wrap error) : ExceptT ε (StateM σ) α).run state =
      ((part.run state).1.mapError wrap, (part.run state).2) := by
  rw [run_tryCatch]
  rcases part.run state with ⟨error | value, after⟩
  · rfl
  · rfl

namespace Computes

variable {inv : σ → Prop}

theorem of_pure (value : α) : Computes (ε := ε) inv (pure value) (.ok value) := by
  intro state hstate
  exact ⟨rfl, hstate⟩

theorem bind {first : ExceptT ε (StateM σ) α} {next : α → ExceptT ε (StateM σ) β}
    {outcome : Except ε α} {nextOutcome : α → Except ε β} (hfirst : Computes inv first outcome)
    (hnext : ∀ value, outcome = .ok value → Computes inv (next value) (nextOutcome value)) :
    Computes inv (first >>= next) (outcome >>= nextOutcome) := by
  intro state hstate
  rcases hfirst state hstate with ⟨hout, hinv⟩
  -- The state in between is unknown, but satisfies the invariant.
  rw [run_bind]
  rcases hrun : first.run state with ⟨error | value, after⟩
  · rw [hrun] at hout hinv
    rw [← hout]
    exact ⟨rfl, hinv⟩
  · rw [hrun] at hout hinv
    rw [← hout]
    exact hnext value hout.symm after hinv

/-- Going through a list computes what the members compute one after the other. -/
theorem mapM {members : List α} {step : α → ExceptT ε (StateM σ) β} {outcome : α → Except ε β}
    (hstep : ∀ member ∈ members, Computes inv (step member) (outcome member)) :
    Computes inv (members.mapM step) (members.mapM outcome) := by
  induction members with
  | nil => exact of_pure []
  | cons first rest ih =>
    rw [List.mapM_cons, List.mapM_cons]
    refine bind (hstep first List.mem_cons_self) fun value _ => ?_
    refine bind (ih fun member hmember => hstep member (List.mem_cons_of_mem first hmember)) ?_
    intro values _
    exact of_pure (value :: values)

end Computes

/-- As `Computes`, for a computation that does not fail. -/
def Yields (inv : σ → Prop) (computation : StateM σ α) (value : α) : Prop :=
  ∀ state, inv state → (computation.run state).1 = value ∧ inv (computation.run state).2

namespace Yields

variable {inv : σ → Prop}

theorem of_pure (value : α) : Yields inv (pure value) value := by
  intro state hstate
  exact ⟨rfl, hstate⟩

theorem bind {first : StateM σ α} {next : α → StateM σ β} {value : α} {result : β}
    (hfirst : Yields inv first value) (hnext : Yields inv (next value) result) :
    Yields inv (first >>= next) result := by
  intro state hstate
  rcases hfirst state hstate with ⟨hvalue, hinv⟩
  show ((next (first.run state).1).run (first.run state).2).1 = result ∧
    inv ((next (first.run state).1).run (first.run state).2).2
  rw [hvalue]
  exact hnext _ hinv

theorem map {first : StateM σ α} {value : α} (h : Yields inv first value) (f : α → β) :
    Yields inv (f <$> first) (f value) := by
  rw [← bind_pure_comp]
  exact h.bind (of_pure (f value))

theorem mapM {members : List α} {step : α → StateM σ β} {value : α → β}
    (hstep : ∀ member, Yields inv (step member) (value member)) :
    Yields inv (members.mapM step) (members.map value) := by
  induction members with
  | nil => exact of_pure []
  | cons first rest ih =>
    rw [List.mapM_cons, List.map_cons]
    exact (hstep first).bind (ih.bind (of_pure (value first :: rest.map value)))

end Yields

/-! ## Two computations -/

/-- From every state of the invariant, a computation has the outcome of another one that only knows
a part of the state, changes that part alike, and restores the invariant. -/
def Simulates {τ : Type} (inv : σ → Prop) (part : σ → τ) (a : ExceptT ε (StateM σ) α)
    (b : ExceptT ε (StateM τ) α) : Prop :=
  ∀ state, inv state → (a.run state).1 = (b.run (part state)).1 ∧
    part (a.run state).2 = (b.run (part state)).2 ∧ inv (a.run state).2

namespace Simulates

variable {τ : Type} {inv : σ → Prop} {part : σ → τ}

theorem of_pure (value : α) :
    Simulates inv part (pure value : ExceptT ε (StateM σ) α) (pure value) := by
  intro state hstate
  exact ⟨rfl, rfl, hstate⟩

theorem bind {a : ExceptT ε (StateM σ) α} {b : ExceptT ε (StateM τ) α}
    {nextA : α → ExceptT ε (StateM σ) β} {nextB : α → ExceptT ε (StateM τ) β}
    (hfirst : Simulates inv part a b)
    (hnext : ∀ value, Simulates inv part (nextA value) (nextB value)) :
    Simulates inv part (a >>= nextA) (b >>= nextB) := by
  intro state hstate
  rcases hfirst state hstate with ⟨hout, hpart, hinv⟩
  rw [run_bind, run_bind]
  rcases ha : a.run state with ⟨outcome, after⟩
  rcases hb : b.run (part state) with ⟨outcomeB, afterB⟩
  rw [ha, hb] at hout hpart
  rw [ha] at hinv
  subst hout hpart
  cases outcome with
  | error error => exact ⟨rfl, rfl, hinv⟩
  | ok value => exact hnext value after hinv

theorem mapM {members : List α} {stepA : α → ExceptT ε (StateM σ) β}
    {stepB : α → ExceptT ε (StateM τ) β}
    (hstep : ∀ member, Simulates inv part (stepA member) (stepB member)) :
    Simulates inv part (members.mapM stepA) (members.mapM stepB) := by
  induction members with
  | nil => exact of_pure []
  | cons first rest ih =>
    rw [List.mapM_cons, List.mapM_cons]
    exact (hstep first).bind fun value => ih.bind fun values => of_pure (value :: values)

theorem tryCatch_throw {a : ExceptT ε (StateM σ) α} {b : ExceptT ε (StateM τ) α}
    (h : Simulates inv part a b) (wrap : ε → ε) :
    Simulates inv part (tryCatch a fun error => throw (wrap error))
      (tryCatch b fun error => throw (wrap error)) := by
  intro state hstate
  rcases h state hstate with ⟨hout, hpart, hinv⟩
  rw [run_tryCatch_throw, run_tryCatch_throw, hout]
  exact ⟨rfl, hpart, hinv⟩

/-- A last computation whose outcome does not count. -/
theorem thenAlways {a : ExceptT ε (StateM σ) α} {b : ExceptT ε (StateM τ) α}
    {lastA : ExceptT ε (StateM σ) β} {lastB : ExceptT ε (StateM τ) β}
    (h : Simulates inv part a b) (hlast : Simulates inv part lastA lastB) :
    Simulates inv part
      (ExceptT.mk do
        let outcome ← a.run
        let _ ← lastA.run
        pure outcome)
      (ExceptT.mk do
        let outcome ← b.run
        let _ ← lastB.run
        pure outcome) := by
  intro state hstate
  rcases h state hstate with ⟨hout, hpart, hinv⟩
  -- The last part starts where the first one ends, from corresponding states.
  rcases hlast (a.run state).2 hinv with ⟨-, hlastPart, hlastInv⟩
  rw [hpart] at hlastPart
  exact ⟨hout, hlastPart, hlastInv⟩

end Simulates

/-! ## Errors -/

/-- The computation fails, if it does, with an error of a certain kind. -/
def FailsOnly (p : ε → Prop) (computation : ExceptT ε (StateM σ) α) : Prop :=
  ∀ state error, (computation.run state).1 = .error error → p error

namespace FailsOnly

variable {p : ε → Prop}

theorem of_pure (value : α) : FailsOnly p (pure value : ExceptT ε (StateM σ) α) := by
  intro state error hfails
  cases hfails

theorem bind {first : ExceptT ε (StateM σ) α} {next : α → ExceptT ε (StateM σ) β}
    (hfirst : FailsOnly p first) (hnext : ∀ value, FailsOnly p (next value)) :
    FailsOnly p (first >>= next) := by
  intro state error hfails
  rw [run_bind] at hfails
  rcases hrun : first.run state with ⟨failure | value, after⟩
  · rw [hrun] at hfails
    cases hfails
    exact hfirst state _ (by rw [hrun])
  · rw [hrun] at hfails
    exact hnext value after error hfails

theorem mapM {members : List α} {step : α → ExceptT ε (StateM σ) β}
    (hstep : ∀ member, FailsOnly p (step member)) : FailsOnly p (members.mapM step) := by
  induction members with
  | nil => exact of_pure []
  | cons first rest ih =>
    rw [List.mapM_cons]
    exact (hstep first).bind fun value => ih.bind fun values => of_pure (value :: values)

theorem tryCatch_throw {part : ExceptT ε (StateM σ) α} {wrap : ε → ε}
    (hwrap : ∀ error, p (wrap error)) :
    FailsOnly p (tryCatch part fun error => throw (wrap error)) := by
  intro state error hfails
  rw [run_tryCatch_throw] at hfails
  rcases hrun : (part.run state).1 with failure | value
  · rw [hrun] at hfails
    cases hfails
    exact hwrap failure
  · rw [hrun] at hfails
    cases hfails

end FailsOnly

/-! ## Outcomes -/

/-- A sequence of two computations succeeds exactly if both do. -/
theorem bind_eq_ok_iff {first : Except ε α} {next : α → Except ε β} {result : β} :
    (first >>= next) = .ok result ↔ ∃ value, first = .ok value ∧ next value = .ok result := by
  cases first with
  | error error =>
    constructor
    · intro h
      cases h
    · rintro ⟨value, h, -⟩
      cases h
  | ok value =>
    constructor
    · intro h
      exact ⟨value, rfl, h⟩
    · rintro ⟨other, h, hnext⟩
      cases h
      exact hnext

/-- A sequence of two computations fails exactly if the first one does or the second one does behind
it. -/
theorem bind_eq_error_iff {first : Except ε α} {next : α → Except ε β} {error : ε} :
    (first >>= next) = .error error ↔
      first = .error error ∨ ∃ value, first = .ok value ∧ next value = .error error := by
  cases first with
  | error other =>
    constructor
    · intro h
      cases h
      exact Or.inl rfl
    · rintro (h | ⟨value, h, -⟩)
      · cases h
        rfl
      · cases h
  | ok value =>
    constructor
    · intro h
      exact Or.inr ⟨value, rfl, h⟩
    · rintro (h | ⟨other, h, hnext⟩)
      · cases h
      · cases h
        exact hnext

theorem mapError_eq_ok_iff {ε' : Type} {outcome : Except ε α} {wrap : ε → ε'} {value : α} :
    outcome.mapError wrap = .ok value ↔ outcome = .ok value := by
  cases outcome with
  | error error => simp [Except.mapError]
  | ok other => simp [Except.mapError]

theorem mapError_eq_error_iff {ε' : Type} {outcome : Except ε α} {wrap : ε → ε'} {error : ε'} :
    outcome.mapError wrap = .error error ↔ ∃ cause, outcome = .error cause ∧ error = wrap cause := by
  cases outcome with
  | error cause => simp [Except.mapError, eq_comm]
  | ok value => simp [Except.mapError]

theorem eq_ok_of_toOption {outcome : Except ε α} {value : α}
    (hsome : outcome.toOption = some value) : outcome = .ok value := by
  cases outcome with
  | error error => cases hsome
  | ok other => exact congrArg _ (Option.some.inj hsome)

theorem exists_of_isSome {outcome : Except ε α} (hsome : outcome.toOption.isSome = true) :
    ∃ value, outcome = .ok value := by
  cases outcome with
  | error error => cases hsome
  | ok value => exact ⟨value, rfl⟩

theorem eq_error_of_match {outcome : Except ε α} {error : ε}
    (hsome : (match outcome with
      | .ok _ => none
      | .error error => some error) = some error) : outcome = .error error := by
  cases outcome with
  | error other => exact congrArg _ (Option.some.inj hsome)
  | ok value => cases hsome

/-! ## Lists of outcomes -/

/-- A list of computations that all succeed gives the list of their values. -/
theorem mapM_eq_ok_map {members : List α} {outcome : α → Except ε β} {value : α → β}
    (hok : ∀ member ∈ members, outcome member = .ok (value member)) :
    members.mapM outcome = .ok (members.map value) := by
  induction members with
  | nil => rfl
  | cons first rest ih =>
    rw [List.mapM_cons, hok first List.mem_cons_self,
      ih fun member hmember => hok member (List.mem_cons_of_mem first hmember)]
    rfl

/-- A list of computations succeeds exactly if the first one and the others do. -/
theorem mapM_cons_eq_ok_iff {first : α} {rest : List α} {outcome : α → Except ε β}
    {values : List β} :
    (first :: rest).mapM outcome = .ok values ↔
      ∃ head tail, outcome first = .ok head ∧ rest.mapM outcome = .ok tail ∧
        values = head :: tail := by
  rw [List.mapM_cons, bind_eq_ok_iff]
  constructor
  · rintro ⟨head, hfirst, hothers⟩
    rcases bind_eq_ok_iff.mp hothers with ⟨tail, hrest, hvalues⟩
    cases hvalues
    exact ⟨head, tail, hfirst, hrest, rfl⟩
  · rintro ⟨head, tail, hfirst, hrest, rfl⟩
    exact ⟨head, hfirst, bind_eq_ok_iff.mpr ⟨tail, hrest, rfl⟩⟩

/-- Where a list of computations succeeds, each of them does, and their values are the result. -/
theorem exists_of_mapM_eq_ok [Inhabited β] {members : List α} {outcome : α → Except ε β}
    {values : List β} (hok : members.mapM outcome = .ok values) :
    ∃ value : α → β, (∀ member ∈ members, outcome member = .ok (value member)) ∧
      values = members.map value := by
  let value (member : α) : β := (outcome member).toOption.getD default
  -- It is enough that each of them succeeds, since then their values are what the list gives.
  suffices hall : ∀ member ∈ members, outcome member = .ok (value member) by
    refine ⟨value, hall, ?_⟩
    rw [mapM_eq_ok_map hall] at hok
    exact (Except.ok.inj hok).symm
  induction members generalizing values with
  | nil => simp
  | cons first rest ih =>
    rcases mapM_cons_eq_ok_iff.mp hok with ⟨head, tail, hfirst, hrest, -⟩
    intro member hmember
    rcases List.mem_cons.mp hmember with rfl | hmember
    · simp [value, hfirst, Except.toOption]
    · exact ih hrest member hmember

/-- A result in the middle comes from the member in its place. -/
theorem exists_split_of_mapM_eq_ok {members : List α} {outcome : α → Except ε β}
    {before after : List β} {value : β}
    (hok : members.mapM outcome = .ok (before ++ value :: after)) :
    ∃ front member back, members = front ++ member :: back ∧
      front.mapM outcome = .ok before ∧ outcome member = .ok value := by
  induction members generalizing before with
  | nil =>
    have hempty : [] = before ++ value :: after := Except.ok.inj hok
    simp at hempty
  | cons first rest ih =>
    rcases mapM_cons_eq_ok_iff.mp hok with ⟨head, tail, hfirst, hrest, hvalues⟩
    cases before with
    | nil =>
      rw [List.nil_append, List.cons.injEq] at hvalues
      exact ⟨[], first, rest, rfl, rfl, hvalues.1 ▸ hfirst⟩
    | cons earlier before =>
      rw [List.cons_append, List.cons.injEq] at hvalues
      rcases ih (hvalues.2 ▸ hrest) with ⟨front, member, back, hsplit, hfront, hmember⟩
      refine ⟨first :: front, member, back, congrArg (first :: ·) hsplit, ?_, hmember⟩
      exact mapM_cons_eq_ok_iff.mpr ⟨head, before, hfirst, hfront, by rw [hvalues.1]⟩

/-- The results of a list of computations all come from its members. -/
theorem exists_of_mem_of_mapM_eq_ok {members : List α} {outcome : α → Except ε β}
    {values : List β} (hok : members.mapM outcome = .ok values) {value : β}
    (hvalue : value ∈ values) : ∃ member ∈ members, outcome member = .ok value := by
  rcases List.append_of_mem hvalue with ⟨before, after, rfl⟩
  rcases exists_split_of_mapM_eq_ok hok with ⟨front, member, back, rfl, -, hmember⟩
  exact ⟨member, by simp, hmember⟩

/-- Each member of a list of computations has a result among all results. -/
theorem exists_mem_of_mapM_eq_ok {members : List α} {outcome : α → Except ε β} {values : List β}
    (hok : members.mapM outcome = .ok values) {member : α} (hmember : member ∈ members) :
    ∃ value ∈ values, outcome member = .ok value := by
  induction members generalizing values with
  | nil => cases hmember
  | cons first rest ih =>
    rcases mapM_cons_eq_ok_iff.mp hok with ⟨head, tail, hfirst, hrest, rfl⟩
    rcases List.mem_cons.mp hmember with rfl | hmember
    · exact ⟨head, List.mem_cons_self, hfirst⟩
    · rcases ih hrest hmember with ⟨value, hvalue, hvalues⟩
      exact ⟨value, List.mem_cons_of_mem head hvalue, hvalues⟩

/-- A list of computations fails with the error of the first one that does. -/
theorem mapM_eq_error_iff {members : List α} {outcome : α → Except ε β} {error : ε} :
    members.mapM outcome = .error error ↔
      ∃ front member back, members = front ++ member :: back ∧
        (∀ earlier ∈ front, ∃ value, outcome earlier = .ok value) ∧
        outcome member = .error error := by
  induction members with
  | nil =>
    constructor
    · intro hfails
      cases hfails
    · rintro ⟨front, member, back, hsplit, -⟩
      simp at hsplit
  | cons first rest ih =>
    rw [List.mapM_cons, bind_eq_error_iff]
    constructor
    · rintro (hfirst | ⟨head, hfirst, hothers⟩)
      · exact ⟨[], first, rest, rfl, by simp, hfirst⟩
      · rcases bind_eq_error_iff.mp hothers with hrest | ⟨tail, -, hdone⟩
        · rcases ih.mp hrest with ⟨front, member, back, rfl, hfront, hmember⟩
          exact ⟨first :: front, member, back, rfl,
            List.forall_mem_cons.mpr ⟨⟨head, hfirst⟩, hfront⟩, hmember⟩
        · cases hdone
    · rintro ⟨front, member, back, hsplit, hfront, hmember⟩
      cases front with
      | nil =>
        obtain ⟨rfl, -⟩ := List.cons.inj hsplit
        exact .inl hmember
      | cons earlier front =>
        obtain ⟨rfl, hrest⟩ := List.cons.inj hsplit
        rw [List.forall_mem_cons] at hfront
        rcases hfront.1 with ⟨head, hhead⟩
        have hfails := ih.mpr ⟨front, member, back, hrest, hfront.2, hmember⟩
        exact .inr ⟨head, hhead, bind_eq_error_iff.mpr (.inl hfails)⟩

/-- Where a list of computations fails, one of them does. -/
theorem exists_of_mapM_eq_error {members : List α} {outcome : α → Except ε β} {error : ε}
    (hfails : members.mapM outcome = .error error) :
    ∃ member ∈ members, outcome member = .error error := by
  rcases mapM_eq_error_iff.mp hfails with ⟨front, member, back, rfl, -, hmember⟩
  exact ⟨member, by simp, hmember⟩

/-- The results of a list of computations are those of its members, one by one. -/
theorem forall₂_of_mapM_eq_ok {members : List α} {outcome : α → Except ε β} {values : List β}
    (hok : members.mapM outcome = .ok values) :
    List.Forall₂ (fun member value => outcome member = .ok value) members values := by
  induction members generalizing values with
  | nil =>
    cases hok
    exact .nil
  | cons first rest ih =>
    rcases mapM_cons_eq_ok_iff.mp hok with ⟨head, tail, hfirst, hrest, rfl⟩
    exact .cons hfirst (ih hrest)

/-- What each result shares with its member, the results share with the members. -/
theorem map_eq_of_mapM_eq_ok {γ : Type} {members : List α} {outcome : α → Except ε β}
    {values : List β} (hok : members.mapM outcome = .ok values) {of : β → γ} {label : α → γ}
    (hlabel : ∀ member value, outcome member = .ok value → of value = label member) :
    values.map of = members.map label := by
  induction members generalizing values with
  | nil =>
    cases hok
    rfl
  | cons first rest ih =>
    rcases mapM_cons_eq_ok_iff.mp hok with ⟨head, tail, hfirst, hrest, rfl⟩
    exact congrArg₂ List.cons (hlabel first head hfirst) (ih hrest)

theorem mapM_congr {m : Type → Type} [Monad m] [LawfulMonad m] {members : List α}
    {f g : α → m β} (h : ∀ member ∈ members, f member = g member) :
    members.mapM f = members.mapM g := by
  induction members with
  | nil => rfl
  | cons first rest ih =>
    rw [List.mapM_cons, List.mapM_cons, h first List.mem_cons_self,
      ih fun member hmember => h member (List.mem_cons_of_mem first hmember)]

end RosInterface
