import Mathlib.Data.Option.Basic

/-!
# Programs that call back

Programs that a host runs on its behalf. A program can look at the host, has a memory of its own
that outlives the run, may panic, and may ask the host to serve a request, which can run further
programs in turn. What it gets to see of such a call is how it ended, so that a program which
catches the panic of a call is one as well.
-/

namespace Foundation

inductive CallEnding (α : Type)
  | returned (value : α)
  | panicked

inductive Callback (Host Memory Request Answer α : Type)
  | done (value : α)
  | panic
  | look (next : Host → Memory → Callback Host Memory Request Answer α)
  | store (memory : Memory) (next : Callback Host Memory Request Answer α)
  | call (request : Request) (next : CallEnding Answer → Callback Host Memory Request Answer α)

namespace Callback

variable {Host Memory Request Answer α : Type}

/-- Runs a program, given how its calls are served; `none` is a call that never returns. -/
def run (serve : Request → Memory → Option (CallEnding Answer × Memory)) (host : Host) :
    Callback Host Memory Request Answer α → Memory → Option (CallEnding α × Memory)
  | done value, memory => some (.returned value, memory)
  | panic, memory => some (.panicked, memory)
  | look next, memory => (next host memory).run serve host memory
  | store memory next, _ => next.run serve host memory
  | call request next, memory =>
    (serve request memory).bind fun (ending, memory) => (next ending).run serve host memory

/-- A run that returns does not depend on calls beyond those it makes. -/
theorem run_of_serves {serve serve' : Request → Memory → Option (CallEnding Answer × Memory)}
    (serves : ∀ request memory served, serve request memory = some served →
      serve' request memory = some served)
    {host : Host} {program : Callback Host Memory Request Answer α} {memory : Memory}
    {ended : CallEnding α × Memory} (ran : program.run serve host memory = some ended) :
    program.run serve' host memory = some ended := by
  induction program generalizing memory with
  | done value => exact ran
  | panic => exact ran
  | look next ih => exact ih host memory ran
  | store stored next ih => exact ih ran
  | call request next ih =>
    obtain ⟨⟨ending, after⟩, served, rest⟩ := Option.bind_eq_some_iff.1 ran
    simp only [run, serves request memory _ served, Option.bind_some]
    exact ih ending rest

end Callback

end Foundation
