import Mathlib.Data.List.Basic

/-!
# Tasks on a snapshot

Tasks run on a state and leave an outcome that is committed to it. Run on one snapshot and committed
in order, they do the same as one after the other, provided no commit changes what a later task
makes of the state. The snapshot may also be another state than the one the serial run starts from,
as long as tasks cannot tell the two apart.
-/

namespace Foundation.Snapshot

variable {State Task Outcome : Type*} (run : State → Task → Outcome)
  (commit : State → Outcome → State)

/-- Each task runs on the state the earlier ones left. -/
def serial : State → List Task → List Outcome × State
  | state, [] => ([], state)
  | state, task :: rest =>
    let outcome := run state task
    let (outcomes, state) := serial (commit state outcome) rest
    (outcome :: outcomes, state)

/-- Every task runs on the same state, and the outcomes are committed in order. -/
def snapshot (state : State) (tasks : List Task) : List Outcome × State :=
  (tasks.map (run state), (tasks.map (run state)).foldl commit state)

/-- No commit changes the outcome of a later task. -/
def Independent : State → List Task → Prop
  | _, [] => True
  | state, task :: rest =>
    (∀ other ∈ rest, run (commit state (run state task)) other = run state other) ∧
      Independent (commit state (run state task)) rest

variable {run commit}

/-- The outcomes of a serial run are those of its first state, so committing them in order gives an
alike state also from elsewhere. -/
theorem serial_of_independent {alike : State → State → Prop}
    (kept : ∀ {state state'}, alike state state' → ∀ outcome,
      alike (commit state outcome) (commit state' outcome))
    {tasks : List Task} {state warm : State} (start : alike state warm)
    (independent : Independent run commit state tasks) :
    (serial run commit state tasks).1 = tasks.map (run state) ∧
      alike (serial run commit state tasks).2 ((tasks.map (run state)).foldl commit warm) := by
  induction tasks generalizing state warm with
  | nil => exact ⟨rfl, start⟩
  | cons task rest ih =>
    obtain ⟨unaffected, others⟩ := independent
    have later : rest.map (run (commit state (run state task))) = rest.map (run state) :=
      List.map_congr_left unaffected
    obtain ⟨outcomes, left⟩ := ih (kept start (run state task)) others
    rw [later] at outcomes left
    refine ⟨?_, ?_⟩
    · rw [serial, List.map_cons, ← outcomes]
    · rw [serial, List.map_cons, List.foldl_cons]
      exact left

/-- A snapshot of a state that tasks cannot tell from the one of the serial run. -/
theorem snapshot_of_independent {alike : State → State → Prop} {tasks : List Task}
    {state warm : State} (independent : Independent run commit state tasks)
    (start : alike state warm)
    (same : ∀ {state state'}, alike state state' → ∀ task, run state' task = run state task)
    (kept : ∀ {state state'}, alike state state' → ∀ outcome,
      alike (commit state outcome) (commit state' outcome)) :
    (snapshot run commit warm tasks).1 = (serial run commit state tasks).1 ∧
      alike (serial run commit state tasks).2 (snapshot run commit warm tasks).2 := by
  obtain ⟨outcomes, left⟩ := serial_of_independent kept start independent
  have snap : tasks.map (run warm) = tasks.map (run state) :=
    List.map_congr_left fun task _ => same start task
  refine ⟨?_, ?_⟩
  · rw [outcomes, snapshot, snap]
  · rw [snapshot, snap]
    exact left

end Foundation.Snapshot
