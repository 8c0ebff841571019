import Hpsvm.Execution

/-!
# Trace metrics

The collector of `register_tracing.rs` that sums up the register traces of each program. Clones of a
collector share one table behind a mutex, which is held while a trace is recorded: the traces of all
threads are recorded one after the other, in any order. `usize` has 64 bits.
-/

namespace Hpsvm

structure ProgramTraceMetrics where
  programId : Address
  invocations : Nat
  cpiInvocations : Nat
  totalRegisterFrames : Nat
  maxRegisterFrames : Nat
  maxStackHeight : Nat
  totalInstructionAccounts : Nat
  maxInstructionAccounts : Nat
deriving DecidableEq, Repr

def ProgramTraceMetrics.new (programId : Address) : ProgramTraceMetrics :=
  ⟨programId, 0, 0, 0, 0, 0, 0, 0⟩

/-- What the collector reads of a traced instruction: its number of frames and its context. -/
structure VmTrace where
  registerFrames : Nat
  programKey : Except InstructionError Address
  stackHeight : Nat
  instructionAccounts : Nat

/-- The update of an entry. -/
def ProgramTraceMetrics.add (entry : ProgramTraceMetrics) (trace : VmTrace) :
    ProgramTraceMetrics where
  programId := entry.programId
  invocations := saturatingAdd entry.invocations 1
  cpiInvocations :=
    if 1 < trace.stackHeight then saturatingAdd entry.cpiInvocations 1 else entry.cpiInvocations
  totalRegisterFrames := saturatingAdd entry.totalRegisterFrames trace.registerFrames
  maxRegisterFrames := max entry.maxRegisterFrames trace.registerFrames
  maxStackHeight := max entry.maxStackHeight trace.stackHeight
  totalInstructionAccounts :=
    saturatingAdd entry.totalInstructionAccounts trace.instructionAccounts
  maxInstructionAccounts := max entry.maxInstructionAccounts trace.instructionAccounts

/-- `TraceMetricsCollector`: the table behind the mutex. -/
abbrev TraceMetricsCollector := AddressMap ProgramTraceMetrics

namespace TraceMetricsCollector

def recordTrace (metrics : TraceMetricsCollector) (trace : VmTrace) :
    Except InstructionError Unit × TraceMetricsCollector :=
  if trace.registerFrames = 0 then (.ok (), metrics)
  else
    match trace.programKey with
    | .error error => (.error error, metrics)
    | .ok programId =>
      (.ok (), metrics.insert programId ((metrics[programId]?.getD (.new programId)).add trace))

/-- `after_invocation`, which prints an error and goes on. -/
def afterInvocation (metrics : TraceMetricsCollector) (traces : List VmTrace)
    (registerTracingEnabled : Bool) : TraceMetricsCollector :=
  if registerTracingEnabled then
    traces.foldl (fun metrics trace => (metrics.recordTrace trace).2) metrics
  else metrics

/-- The comparison of `snapshot`. -/
def ranking (left right : ProgramTraceMetrics) : Ordering :=
  (compare right.totalRegisterFrames left.totalRegisterFrames).then
    ((compare right.invocations left.invocations).then (compare left.programId right.programId))

/-- `snapshot`, for the order in which the table lists its values. -/
def snapshot (values : List ProgramTraceMetrics) : List ProgramTraceMetrics :=
  values.mergeSort fun left right => (ranking left right).isLE

end TraceMetricsCollector

end Hpsvm
