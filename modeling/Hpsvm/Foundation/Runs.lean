import Mathlib.Data.List.Basic

/-! Runs of a machine whose steps can fail, and properties that hold in every state a run reaches. -/

namespace Foundation.Runs

variable {Op State : Type*} (step : Op → State → Option State)

def run : List Op → State → Option State
  | [], state => some state
  | op :: rest, state => (step op state).bind (run rest)

/-- Every operation of a run, in the state it is taken in. -/
def Along (holds : Op → State → Prop) : List Op → State → Prop
  | [], _ => True
  | op :: rest, state => holds op state ∧ ∀ next, step op state = some next → Along holds rest next

variable {step}

theorem run_append (before after : List Op) (start : State) :
    run step (before ++ after) start = (run step before start).bind (run step after) := by
  induction before generalizing start with
  | nil => rfl
  | cons op rest ih =>
    rw [List.cons_append, run, run, Option.bind_assoc]
    exact congrArg _ (funext ih)

/-- What every operation keeps holds in every state a run reaches. -/
theorem invariant_run (invariant : State → Prop)
    (keeps : ∀ op state next, invariant state → step op state = some next → invariant next)
    {ops : List Op} {start reached : State} (initial : invariant start)
    (ran : run step ops start = some reached) : invariant reached := by
  induction ops generalizing start with
  | nil =>
    cases ran
    exact initial
  | cons op rest ih =>
    obtain ⟨next, taken, remaining⟩ := Option.bind_eq_some_iff.1 ran
    exact ih (keeps op start next initial taken) remaining

/-- What every operation keeps that meets its condition holds in every state reached. -/
theorem invariant_of_along {holds : Op → State → Prop} (invariant : State → Prop)
    (keeps : ∀ op state next, invariant state → holds op state → step op state = some next →
      invariant next)
    {ops before after : List Op} {start reached : State} (initial : invariant start)
    (along : Along step holds ops start) (split : ops = before ++ after)
    (ran : run step before start = some reached) : invariant reached := by
  induction before generalizing ops start with
  | nil =>
    cases ran
    exact initial
  | cons op before ih =>
    subst split
    obtain ⟨first, others⟩ := along
    obtain ⟨next, taken, remaining⟩ := Option.bind_eq_some_iff.1 ran
    exact ih (keeps op start next initial first taken) (others next taken) rfl remaining

/-- Where the condition is what an operation needs to keep the invariant, a run meets it throughout
exactly if every state it reaches is good. -/
theorem along_iff_reached {holds : Op → State → Prop} {good : State → Prop} (invariant : State → Prop)
    (keeps : ∀ op state next, invariant state → holds op state → step op state = some next →
      invariant next)
    (goods : ∀ state, invariant state → good state)
    (needs : ∀ op state next, invariant state → step op state = some next → good next →
      holds op state)
    (stuck : ∀ op state, step op state = none → holds op state)
    {ops : List Op} {start : State} (initial : invariant start) :
    Along step holds ops start ↔ ∀ before after reached, ops = before ++ after →
      run step before start = some reached → good reached := by
  constructor
  · intro along before after reached split ran
    exact goods reached (invariant_of_along invariant keeps initial along split ran)
  · intro reached
    induction ops generalizing start with
    | nil => trivial
    | cons op rest ih =>
      cases taken : step op start with
      | none => exact ⟨stuck op start taken, fun next equal => by rw [taken] at equal; cases equal⟩
      | some next =>
        have first : holds op start := by
          apply needs op start next initial taken
          exact reached [op] rest next rfl (by simp [run, taken])
        refine ⟨first, ?_⟩
        intro other equal
        rw [taken] at equal
        cases equal
        apply ih (keeps op start next initial first taken)
        intro before after last split ran
        exact reached (op :: before) after last (by rw [split]; rfl) (by simp [run, taken, ran])

end Foundation.Runs
