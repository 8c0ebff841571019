import Mathlib.Data.Option.Basic

/-!
# Two runs in step

Rules for a computation that is run twice, from related states. A computation that can have no
answer is related by `Option.Rel`; one that answers a result with the state it leaves is related if
the results are the same and the states related.
-/

namespace Foundation.Lockstep

variable {α α' β β' ρ ε : Type*} {R : α → α' → Prop} {S : β → β' → Prop}

theorem bind {first : Option α} {first' : Option α'} {next : α → Option β}
    {next' : α' → Option β'} (starts : Option.Rel R first first')
    (continues : ∀ state state', R state state' → Option.Rel S (next state) (next' state')) :
    Option.Rel S (first.bind next) (first'.bind next') := by
  cases starts with
  | none => exact .none
  | some related => exact continues _ _ related

theorem map {first : Option α} {first' : Option α'} {next : α → β} {next' : α' → β'}
    (starts : Option.Rel R first first')
    (continues : ∀ state state', R state state' → S (next state) (next' state')) :
    Option.Rel S (first.map next) (first'.map next') := by
  cases starts with
  | none => exact .none
  | some related => exact .some (continues _ _ related)

/-- The run of the second state answers what that of the first does. -/
theorem exists_related {first : Option α} {first' : Option α'} {state : α}
    (starts : Option.Rel R first first') (answered : first = some state) :
    ∃ state', first' = some state' ∧ R state state' := by
  subst answered
  cases starts with
  | some related => exact ⟨_, rfl, related⟩

/-- The runs answer the same result and leave related states. -/
structure Answers (R : α → α' → Prop) (outcome : ρ × α) (outcome' : ρ × α') : Prop where
  result : outcome'.1 = outcome.1
  left : R outcome.2 outcome'.2

/-- The runs fail alike, or they succeed alike. -/
theorem Answers.cases {outcome : Except ε Unit × α} {outcome' : Except ε Unit × α'}
    (answers : Answers R outcome outcome') :
    (∃ error state state', outcome = (.error error, state) ∧ outcome' = (.error error, state') ∧
      R state state') ∨
    ∃ state state', outcome = (.ok (), state) ∧ outcome' = (.ok (), state') ∧ R state state' := by
  obtain ⟨result, state⟩ := outcome
  obtain ⟨result', state'⟩ := outcome'
  obtain ⟨rfl, related⟩ := answers
  cases result' with
  | error error => exact .inl ⟨error, state, state', rfl, rfl, related⟩
  | ok done => exact .inr ⟨state, state', rfl, rfl, related⟩

end Foundation.Lockstep
