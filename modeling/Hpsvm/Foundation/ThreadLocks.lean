import Mathlib.Data.Finset.Basic

/-!
# Locks taken by one thread

Programs of one thread over locks that are not reentrant. A program that asks for a lock the thread
already holds waits forever, and ends as `waits`; one whose recursion is cut off ends as
`outOfFuel`. Both leave the thread as it was at that point.
-/

namespace Foundation.ThreadLocks

variable {Lock State α β : Type}

/-- The locks a thread holds, and the state its programs share. -/
structure Thread (Lock State : Type) where
  held : Finset Lock
  state : State

inductive Stop (Lock : Type)
  | waits (lock : Lock)
  | outOfFuel

abbrev Program (Lock State α : Type) := EStateM (Stop Lock) (Thread Lock State) α

/-- The thread a program leaves, however it ends. -/
def left : EStateM.Result (Stop Lock) (Thread Lock State) α → Thread Lock State
  | .ok _ thread => thread
  | .error _ thread => thread

def outOfFuel : Program Lock State α := fun thread => .error .outOfFuel thread

def modifyState (change : State → α × State) : Program Lock State α := fun thread =>
  let (value, state) := change thread.state
  .ok value { thread with state := state }

variable [DecidableEq Lock]

def acquire (lock : Lock) : Program Lock State Unit := fun thread =>
  if lock ∈ thread.held then .error (.waits lock) thread
  else .ok () { thread with held := insert lock thread.held }

def release (lock : Lock) : Program Lock State Unit := fun thread =>
  .ok () { thread with held := thread.held.erase lock }

/-- Runs a program under a lock. -/
def holding (lock : Lock) (body : Program Lock State α) : Program Lock State α := do
  acquire lock
  let value ← body
  release lock
  pure value

/-- Takes a lock for a moment. -/
def touch (lock : Lock) : Program Lock State Unit := holding lock (pure ())

/-! ### Rules -/

omit [DecidableEq Lock] in
theorem bind_ok {first : Program Lock State α} {next : α → Program Lock State β}
    {thread after : Thread Lock State} {value : α} (ended : first.run thread = .ok value after) :
    (first >>= next).run thread = (next value).run after := by
  simp only [EStateM.run] at ended ⊢
  simp [bind, EStateM.bind, ended]

omit [DecidableEq Lock] in
theorem bind_error {first : Program Lock State α} {next : α → Program Lock State β}
    {thread after : Thread Lock State} {stop : Stop Lock}
    (stopped : first.run thread = .error stop after) :
    (first >>= next).run thread = .error stop after := by
  simp only [EStateM.run] at stopped ⊢
  simp [bind, EStateM.bind, stopped]

omit [DecidableEq Lock] in
@[simp] theorem run_pure (value : α) (thread : Thread Lock State) :
    (pure value : Program Lock State α).run thread = .ok value thread := rfl

omit [DecidableEq Lock] in
@[simp] theorem run_modifyState (change : State → α × State) (thread : Thread Lock State) :
    (modifyState change : Program Lock State α).run thread =
      .ok (change thread.state).1 ⟨thread.held, (change thread.state).2⟩ := rfl

theorem acquire_free {lock : Lock} {thread : Thread Lock State} (free : lock ∉ thread.held) :
    (acquire lock).run thread = .ok () ⟨insert lock thread.held, thread.state⟩ :=
  if_neg free

theorem holding_waits {lock : Lock} {body : Program Lock State α} {thread : Thread Lock State}
    (taken : lock ∈ thread.held) :
    (holding lock body).run thread = .error (.waits lock) thread :=
  bind_error (if_pos taken)

theorem holding_ok {lock : Lock} {body : Program Lock State α} {thread after : Thread Lock State}
    {value : α} (free : lock ∉ thread.held)
    (ended : body.run ⟨insert lock thread.held, thread.state⟩ = .ok value after) :
    (holding lock body).run thread = .ok value ⟨after.held.erase lock, after.state⟩ := by
  rw [holding, bind_ok (acquire_free free), bind_ok ended]
  rfl

theorem holding_error {lock : Lock} {body : Program Lock State α}
    {thread after : Thread Lock State} {stop : Stop Lock} (free : lock ∉ thread.held)
    (stopped : body.run ⟨insert lock thread.held, thread.state⟩ = .error stop after) :
    (holding lock body).run thread = .error stop after := by
  rw [holding, bind_ok (acquire_free free), bind_error stopped]

/-- Reading or changing the state under a free lock only changes the state. -/
theorem holding_modifyState {lock : Lock} {change : State → α × State}
    {thread : Thread Lock State} (free : lock ∉ thread.held) :
    (holding lock (modifyState change)).run thread =
      .ok (change thread.state).1 ⟨thread.held, (change thread.state).2⟩ := by
  rw [holding_ok free (run_modifyState _ _), Finset.erase_insert free]

theorem touch_ok {lock : Lock} {thread : Thread Lock State} (free : lock ∉ thread.held) :
    (touch lock).run thread = .ok () thread := by
  rw [touch, holding_ok free (run_pure _ _), Finset.erase_insert free]

end Foundation.ThreadLocks
