import Hpsvm.Inspected
import Hpsvm.Properties.ReadonlyFrame

/-!
# The events of an inspector

An inspector that accepts the origin hears `transaction_start`, the start and the end of each
instruction up to the one that fails, the log and `transaction_end`, or nothing at all if the
transaction is rejected before its message is processed. The changes of its accounts follow if it is
committed. A hook that panics ends the sequence.
-/

namespace Hpsvm

open Foundation.Unwinding

namespace Svm

variable (agave : Agave) {keys : List Address}

/-! ### How a message runs -/

/-- The context before the instruction with the given index, if the instructions before it pass. -/
def contextAt (vm : Svm) (config : EnvironmentConfig) (message : SanitizedMessage)
    (prepared : InvokeContext keys) : Nat → InvokeContext keys
  | 0 => prepared
  | index + 1 =>
    let context := vm.contextAt config message prepared index
    match message.instructions[index]? with
    | none => context
    | some instruction =>
      (vm.processTopLevelInstruction agave config message index instruction context).context

/-- How the instruction with the given index ends. -/
def resultAt (vm : Svm) (config : EnvironmentConfig) (message : SanitizedMessage)
    (prepared : InvokeContext keys) (index : Nat) : Option (Except InstructionError Unit) :=
  message.instructions[index]?.map fun instruction =>
    (vm.processTopLevelInstruction agave config message index instruction
      (vm.contextAt agave config message prepared index)).result

/-- How many instructions of a message run, and with which result: none if it cannot be prepared,
otherwise up to the first that fails, or all. -/
inductive MessageRuns (vm : Svm) (config : EnvironmentConfig) (message : SanitizedMessage)
    (context : InvokeContext keys) : Nat → Except TransactionError Unit → Prop
  | unprepared {index : Nat} {error : InstructionError}
      (refused : agave.prepareTopLevelInstructions config message context = .error (index, error)) :
      vm.MessageRuns config message context 0 (.error (.instructionError index error))
  | failed {prepared : InvokeContext keys} {last : Nat} {error : InstructionError}
      (ready : agave.prepareTopLevelInstructions config message context = .ok prepared)
      (passed : ∀ index < last, vm.resultAt agave config message prepared index = some (.ok ()))
      (fails : vm.resultAt agave config message prepared last = some (.error error)) :
      vm.MessageRuns config message context (last + 1)
        (.error (.instructionError (last % 256) error))
  | finished {prepared : InvokeContext keys}
      (ready : agave.prepareTopLevelInstructions config message context = .ok prepared)
      (passed : ∀ index < message.instructions.length,
        vm.resultAt agave config message prepared index = some (.ok ())) :
      vm.MessageRuns config message context message.instructions.length (.ok ())

end Svm

namespace Readonly

open Svm (MessageOutcome ProcessedTransaction Execution)

variable (agave : BatchAgave) {keys : List Address}

/-- The hooks around the instruction with the given index. -/
def hooksAround (message : SanitizedMessage) (index : Nat) : List HookEvent :=
  match message.instructions[index]? with
  | none => []
  | some instruction =>
    let programId := message.accountKeys.getD instruction.programIdIndex 0
    [.instructionStart index programId, .instructionEnd index programId]

/-- The hooks of the instruction loop from an instruction on. Each round fires the two around its
instruction; the loop goes on only if that passed. -/
theorem instructionPoints_events (vm : Svm) (config : EnvironmentConfig)
    (message : SanitizedMessage) (prepared : InvokeContext keys) {index : Nat}
    {rest : List CompiledInstruction} (remaining : message.instructions.drop index = rest)
    (scratch : TxScratch) (consumed : Nat) :
    ∃ count,
      (instructionPoints agave vm config message index rest
        (vm.contextAt agave.toAgave config message prepared index) scratch).map Prod.fst =
          (List.range' index count).flatMap (hooksAround message) ∧
      ((∃ last error, index ≤ last ∧ index + count = last + 1 ∧
          (∀ other, index ≤ other → other < last →
            vm.resultAt agave.toAgave config message prepared other = some (.ok ())) ∧
          vm.resultAt agave.toAgave config message prepared last = some (.error error) ∧
          (vm.processInstructions agave.toAgave config message index rest
            (vm.contextAt agave.toAgave config message prepared index) consumed).result =
              .error (.instructionError (last % 256) error)) ∨
        (index + count = index + rest.length ∧
          (∀ other, index ≤ other → other < index + rest.length →
            vm.resultAt agave.toAgave config message prepared other = some (.ok ())) ∧
          (vm.processInstructions agave.toAgave config message index rest
            (vm.contextAt agave.toAgave config message prepared index) consumed).result =
              .ok ())) := by
  induction rest generalizing index scratch consumed with
  | nil =>
    refine ⟨0, rfl, .inr ⟨rfl, ?_, rfl⟩⟩
    intro other lower upper
    simp only [List.length_nil] at upper
    omega
  | cons instruction rest ih =>
    have found : message.instructions[index]? = some instruction := by
      have first := congrArg (fun instructions => instructions[0]?) remaining
      simpa using first
    have further : message.instructions.drop (index + 1) = rest := by
      rw [← List.drop_drop, remaining]
      rfl
    have next : vm.contextAt agave.toAgave config message prepared (index + 1) =
        (vm.processTopLevelInstruction agave.toAgave config message index instruction
          (vm.contextAt agave.toAgave config message prepared index)).context := by
      simp only [Svm.contextAt, found]
    have ends : vm.resultAt agave.toAgave config message prepared index =
        some (vm.processTopLevelInstruction agave.toAgave config message index instruction
          (vm.contextAt agave.toAgave config message prepared index)).result := by
      simp only [Svm.resultAt, found, Option.map_some]
    simp only [instructionPoints, Svm.processInstructions]
    cases result : (vm.processTopLevelInstruction agave.toAgave config message index instruction
        (vm.contextAt agave.toAgave config message prepared index)).result with
    | error error =>
      rw [result] at ends
      refine ⟨1, ?_, .inl ⟨index, error, le_rfl, rfl, ?_, ends, rfl⟩⟩
      · simp [hooksAround, found]
      · intro other lower upper
        omega
    | ok done =>
      rw [result] at ends
      obtain ⟨count, events, ended⟩ := ih further
        (vm.scratchAfter agave config message index instruction
          (vm.contextAt agave.toAgave config message prepared index) scratch)
        (saturatingAdd consumed (vm.processTopLevelInstruction agave.toAgave config message index
          instruction (vm.contextAt agave.toAgave config message prepared index)).computeUnitsConsumed)
      rw [next] at events ended
      -- The instruction itself passed, so those that pass from here on are one more.
      have passed : ∀ bound, (∀ other, index + 1 ≤ other → other < bound →
            vm.resultAt agave.toAgave config message prepared other = some (.ok ())) →
          ∀ other, index ≤ other → other < bound →
            vm.resultAt agave.toAgave config message prepared other = some (.ok ()) := by
        intro bound later other lower upper
        rcases lower.eq_or_lt with rfl | above
        · exact ends
        · exact later other above upper
      refine ⟨count + 1, ?_, ?_⟩
      · simp [List.range'_succ, hooksAround, found, events]
      · rcases ended with ⟨last, error, lower, counted, before, fails, same⟩ | ⟨counted, before, same⟩
        · exact .inl ⟨last, error, by omega, by omega, passed last before, fails, same⟩
        · refine .inr ⟨?_, ?_, same⟩
          · simp only [List.length_cons]
            omega
          · apply passed
            intro other lower upper
            apply before other lower
            simp only [List.length_cons] at upper
            omega

/-- The hooks of the message: those around the instructions that run. -/
theorem messageEffect_events (vm : Svm) (config : EnvironmentConfig) (message : SanitizedMessage)
    (context : InvokeContext keys) (scratch : TxScratch) :
    ∃ count,
      vm.MessageRuns agave.toAgave config message context count
        (vm.processMessage agave.toAgave config message context).result ∧
      (messageEffect agave vm true config message context scratch).points.map Prod.fst =
        (List.range count).flatMap (hooksAround message) := by
  unfold messageEffect Svm.processMessage
  cases ready : agave.prepareTopLevelInstructions config message context with
  | error refused => exact ⟨0, .unprepared ready, rfl⟩
  | ok prepared =>
    obtain ⟨count, events, ended⟩ := instructionPoints_events agave vm config message prepared
      List.drop_zero { scratch with modifiedEntries := prepared.modifiedEntries } 0
    refine ⟨count, ?_, ?_⟩
    · rcases ended with ⟨last, error, -, counted, before, fails, same⟩ | ⟨counted, before, same⟩
      · obtain rfl : count = last + 1 := by omega
        simp only [Svm.contextAt] at same
        rw [same]
        exact .failed ready (fun index below => before index (Nat.zero_le _) below) fails
      · obtain rfl : count = message.instructions.length := by omega
        simp only [Svm.contextAt] at same
        rw [same]
        refine .finished ready fun index below => before index (Nat.zero_le _) ?_
        omega
    · rw [List.range_eq_range']
      exact events

/-! ### How an execution answers -/

/-- An execution is rejected and fires no hook, or gets to its message. -/
theorem executionAnswer_cases (vm : Svm) (live : Bool) (tx : VersionedTransaction)
    (scratch : TxScratch) :
    ((executionAnswer agave vm tx scratch).1.Rejected ∧
      hookPoints agave vm live tx scratch = none) ∨
    ∃ run : Execution agave.toAgave vm tx,
      hookPoints agave vm live tx scratch =
        some (loadedPoints agave vm live run.sanitized run.config run.loaded scratch) ∧
      executionAnswer agave vm tx scratch =
        (Svm.executionResultIfContext run.sanitized
          ⟨_, vm.processMessage agave.toAgave run.config run.message
            (lentContext run.config run.loaded scratch), run.fee, some run.payer, run.failures⟩,
          (vm.processMessage agave.toAgave run.config run.message
            (lentContext run.config run.loaded scratch)).context.logs) := by
  unfold hookPoints executionAnswer
  cases sanitized : vm.sanitize agave.toAgave tx with
  | error result => exact .inl ⟨Svm.rejected_of_sanitize agave.toAgave sanitized, rfl⟩
  | ok sanitizedTx =>
    simp only
    cases checked : vm.checkTransaction agave.toAgave sanitizedTx with
    | error result => exact .inl ⟨Svm.rejected_of_checkTransaction agave.toAgave checked, rfl⟩
    | ok limits =>
      simp only [transactionAnswer, transactionPoints]
      cases rent : vm.accounts.rent? agave.toAgave with
      | none => exact .inl ⟨ExecutionResult.rejected_rejected _ _, rfl⟩
      | some value =>
        simp only
        cases loaded : vm.loadAccounts agave.toAgave sanitizedTx.message value
            (vm.transactionFee agave.toAgave sanitizedTx.message limits) 0
            sanitizedTx.message.accountKeys none with
        | error result => exact .inl ⟨Svm.rejected_of_loadAccounts agave.toAgave loaded, rfl⟩
        | ok pair =>
          obtain ⟨accounts, _ | payer⟩ := pair
          · exact .inl ⟨ExecutionResult.rejected_rejected _ _, rfl⟩
          · simp only
            cases resolved : vm.resolveProgramIndices accounts
                (vm.transactionFee agave.toAgave sanitizedTx.message limits)
                sanitizedTx.message.instructions [] with
            | error result => exact .inl ⟨Svm.rejected_of_resolveProgramIndices resolved, rfl⟩
            | ok pair =>
              exact .inr ⟨⟨sanitizedTx, limits, value, accounts, payer, pair.1, pair.2, sanitized,
                checked, rent, loaded, resolved⟩, rfl, rfl⟩

/-! ### The grammar -/

/-- The events of an execution with the given outcome. -/
structure FollowsGrammar (vm : Svm) (tx : VersionedTransaction) (scratch : TxScratch)
    (execution : ExecutionResult) (logs : List String) (events : List HookEvent) : Prop where
  rejected : execution.included = false → events = []
  executed : execution.included = true →
    ∃ (run : Execution agave.toAgave vm tx) (count : Nat),
      vm.MessageRuns agave.toAgave run.config run.message
        (lentContext run.config run.loaded scratch) count execution.txResult ∧
      events = .transactionStart run.sanitized ::
        (List.range count).flatMap (hooksAround run.message) ++ logs.map .log ++
          [.transactionEnd execution.txResult]

theorem followsGrammar_hookPoints (vm : Svm) (tx : VersionedTransaction) (scratch : TxScratch) :
    FollowsGrammar agave vm tx scratch (executionAnswer agave vm tx scratch).1
      (executionAnswer agave vm tx scratch).2
      (((hookPoints agave vm true tx scratch).getD []).map Prod.fst) := by
  rcases executionAnswer_cases agave vm true tx scratch with ⟨rejected, points⟩ | ⟨run, points, answer⟩
  · rw [points]
    refine ⟨fun _ => rfl, fun included => ?_⟩
    rw [rejected.not_included] at included
    cases included
  · rw [points, answer]
    refine ⟨nofun, fun _ => ?_⟩
    obtain ⟨count, runs, events⟩ := messageEffect_events agave vm run.config run.message
      (lentContext run.config run.loaded scratch) scratch
    refine ⟨run, count, runs, ?_⟩
    simp only [Option.getD_some, loadedPoints, if_true, List.map_append, List.map_cons, List.map_map,
      List.map_nil, messageEffect_value, List.cons_append]
    exact congrArg _ (congrArg (· ++ _) (congrArg (· ++ _) events))

/-! ### Read-only calls -/

def EntryPoint.call (tx : VersionedTransaction) : EntryPoint → ReadonlyProgram Unit
  | transactDetached => do
    let _ ← Readonly.transactDetached agave tx
  | tryTransact => do
    let _ ← Readonly.tryTransact agave tx
  | simulateTransaction => do
    let _ ← Readonly.simulateTransaction agave tx

section Accepted

variable {faults : Prop} {shared : SharedVm} {inspector : HookInspector}
  (installed : shared.slot = some inspector)
  (accepted : inspector.accepts inspector.heard = true)

include installed accepted

/-- An inspector that accepts is consulted, and takes part. -/
theorem listening_of_accepts :
    (listening : ReadonlyProgram Bool).run shared =
      .ok true ⟨shared.rest, shared.scratch, some inspector.consult⟩ := by
  obtain ⟨vm, scratch, slot⟩ := shared
  obtain rfl : slot = some inspector := installed
  simp [listening, EStateM.run, accepted]

theorem hears_executeReadonly (tx : VersionedTransaction) :
    Hears faults inspector.consult
      (((hookPoints agave shared.rest true tx shared.scratch).getD []).map Prod.fst)
      ((executeReadonly agave tx).run shared) := by
  have live := listening_of_accepts installed accepted
  have performs := performs_executeImpl agave shared.rest true tx shared.scratch
  simp only [EStateM.run] at live
  simp only [executeReadonly, EStateM.run, Bind.bind, EStateM.bind, live]
  exact performs.hears faults inspector.consult

theorem executeReadonly_returned {tx : VersionedTransaction} {after : SharedVm}
    {answer : ExecutionResult × List String}
    (returned : (executeReadonly agave tx).run shared = .ok answer after) :
    answer = executionAnswer agave shared.rest tx shared.scratch ∧ after.rest = shared.rest := by
  have live := listening_of_accepts installed accepted
  have performs := performs_executeImpl agave shared.rest true tx shared.scratch
  simp only [EStateM.run] at live
  simp only [executeReadonly, EStateM.run, Bind.bind, EStateM.bind, live] at returned
  exact performs.returned returned

/-- A read-only call fires the hooks of its execution and no other. -/
theorem hears_call (entry : EntryPoint) (tx : VersionedTransaction) :
    Hears faults inspector.consult
      (((hookPoints agave shared.rest true tx shared.scratch).getD []).map Prod.fst)
      ((entry.call agave tx).run shared) := by
  have detached : Hears faults inspector.consult
      (((hookPoints agave shared.rest true tx shared.scratch).getD []).map Prod.fst)
      ((transactDetached agave tx).run shared) :=
    (hears_executeReadonly agave installed accepted tx).bind_returns fun _ _ => ⟨_, rfl⟩
  cases entry with
  | transactDetached => exact detached.bind_returns fun _ _ => ⟨_, rfl⟩
  | tryTransact =>
    apply Hears.bind_returns
    · apply detached.bind_returns
      intro outcome after
      cases outcome.fatalError <;> exact ⟨_, rfl⟩
    · exact fun _ _ => ⟨_, rfl⟩
  | simulateTransaction =>
    apply Hears.bind_returns
    · apply detached.bind_returns
      intro outcome after
      cases outcome.status <;> exact ⟨_, rfl⟩
    · exact fun _ _ => ⟨_, rfl⟩

end Accepted

end Readonly

/-! ### Staged transactions -/

namespace Inspected

open Readonly (hookPoints executionAnswer)

variable (agave : BatchAgave)

/-- What a detached execution answers. -/
def detachedAnswer (shared : SharedVm) (tx : VersionedTransaction) : DetachedTx :=
  let answer := executionAnswer agave shared.rest tx shared.scratch
  shared.rest.executionIntoDetached agave.toAgave answer.1 answer.2

/-- The hooks that a resolution fires for the given changes. A sink that fails commits nothing. -/
def Resolution.events {σ ε : Type} (changes : List AccountChangeRecord) :
    Resolution σ ε → List HookEvent
  | commit => changes.map .accountChange
  | commitWith sink state =>
    match (ExecutedTx.streamChanges sink changes state).1 with
    | .error _ => []
    | .ok () => changes.map .accountChange
  | discard => []

/-- The staged accounts are rolled back. -/
def Resolution.RollsBack {σ ε : Type} (changes : List AccountChangeRecord) :
    Resolution σ ε → Prop
  | commit => False
  | commitWith sink state => ∃ error, (ExecutedTx.streamChanges sink changes state).1 = .error error
  | discard => True

theorem Resolution.events_nil {σ ε : Type} (resolution : Resolution σ ε) :
    resolution.events [] = [] := by
  cases resolution <;> rfl

/-- The records of a staged transaction, one for each account it stages. -/
theorem changes_of_stageDetached {vm : Svm} {detached : DetachedTx} {staged : ExecutedTx}
    (staging : vm.stageDetached agave.toAgave detached = .ok staged) :
    staged.changes =
      (if detached.included then detached.postAccounts else []).map fun (address, after) =>
        ⟨address, vm.accounts.getAccount address, after.visible⟩ := by
  unfold Svm.stageDetached at staging
  simp only at staging
  split at staging
  · cases staging
  · split at staging
    · cases staging
    · cases staging
      cases included : detached.included <;> simp [detachedIntoResultAndDelta, included]

/-- An execution that is not included leaves nothing to stage. -/
theorem detachedAnswer_of_excluded {shared : SharedVm} {tx : VersionedTransaction}
    (excluded : (detachedAnswer agave shared tx).included = false) :
    (detachedAnswer agave shared tx).postAccounts = [] := by
  rcases Readonly.executionAnswer_cases agave shared.rest true tx shared.scratch with
    ⟨rejected, -⟩ | ⟨run, -, answer⟩
  · exact rejected.nothing_staged
  · unfold detachedAnswer at excluded
    rw [answer] at excluded
    cases excluded

/-- The changes that a transaction stages, none if staging is refused. -/
def stagedChanges (shared : SharedVm) (tx : VersionedTransaction) : List AccountChangeRecord :=
  match shared.rest.stageDetached agave.toAgave (detachedAnswer agave shared tx) with
  | .error _ => []
  | .ok staged => staged.changes

section Hooks

variable {faults : Prop} {shared : SharedVm} {inspector : HookInspector}
  (installed : shared.slot = some inspector)

include installed

theorem hears_onAccountChanges (changes : List AccountChangeRecord) :
    Hears faults inspector (changes.map .accountChange) ((onAccountChanges true changes).run shared) := by
  obtain ⟨vm, scratch, slot⟩ := shared
  obtain rfl : slot = some inspector := installed
  have performs : Performs vm (onAccountChanges true changes) scratch
      ⟨changes.map fun record => (.accountChange record, scratch), (), scratch⟩ := by
    induction changes with
    | nil => exact performs_pure vm () scratch
    | cons record rest ih =>
      apply (Readonly.performs_onHook (.accountChange record)).bind ih
      rfl
  have heard := performs.hears faults inspector
  rw [List.map_map] at heard
  exact heard

/-- A commit fires one hook for each change, if the inspector took part in the execution. -/
theorem hears_commit {staged : InspectedTx}
    (live : staged.inspectorLive = true ∨ staged.changes = []) :
    Hears faults inspector (staged.changes.map .accountChange) ((commit staged).run shared) := by
  have announced : Hears faults inspector (staged.changes.map .accountChange)
      ((onAccountChanges staged.inspectorLive staged.changes).run shared) := by
    rcases live with live | nothing
    · rw [live]
      exact hears_onAccountChanges installed staged.changes
    · rw [nothing]
      exact hears_nil_of_ok installed
  rw [← List.append_nil (staged.changes.map _)]
  apply announced.bind
  intro _ after _ slot
  exact hears_nil_of_ok slot

theorem slot_unstage (staged : InspectedTx) :
    (left ((unstage agave staged).run shared)).slot = some inspector := by
  unfold unstage
  simp only
  split
  · split <;> exact installed
  · exact installed

/-- Rolling back fires nothing, but may fail to rebuild the caches. -/
theorem hears_unstage {α : Type} (may : faults) (staged : InspectedTx) (value : α) :
    Hears faults inspector [] ((unstage agave staged >>= fun _ => pure value).run shared) := by
  have slot := slot_unstage agave installed staged
  have unstaged : Hears faults inspector [] ((unstage agave staged).run shared) := by
    cases ran : (unstage agave staged).run shared with
    | ok done after =>
      rw [ran] at slot
      exact hears_nil_of_ok slot
    | error stop after =>
      rw [ran] at slot
      exact ⟨[], List.nil_prefix, slot.trans (by rw [Listener.after_nil]), .inl may⟩
  exact unstaged.bind_returns fun _ _ => ⟨_, rfl⟩

theorem hears_resolve {σ ε : Type} (resolution : Resolution σ ε) {staged : InspectedTx}
    (live : staged.inspectorLive = true ∨ staged.changes = []) :
    Hears (resolution.RollsBack staged.changes) inspector (resolution.events staged.changes)
      ((resolution.resolve agave staged).run shared) := by
  cases resolution with
  | commit => exact (hears_commit installed live).bind_returns fun _ _ => ⟨_, rfl⟩
  | commitWith sink state =>
    have streamed : Hears ((Resolution.commitWith sink state).RollsBack staged.changes) inspector
        ((Resolution.commitWith sink state).events staged.changes)
        ((commitWith agave sink state staged).run shared) := by
      unfold commitWith
      simp only [Resolution.events, Resolution.RollsBack]
      cases ExecutedTx.streamChanges sink staged.changes state with
      | mk outcome state =>
        cases outcome with
        | error error => exact hears_unstage agave installed ⟨error, rfl⟩ staged _
        | ok done => exact (hears_commit installed live).bind_returns fun _ _ => ⟨_, rfl⟩
    exact streamed.bind_returns fun _ _ => ⟨_, rfl⟩
  | discard =>
    exact (hears_unstage agave installed trivial staged _).bind_returns fun _ _ => ⟨_, rfl⟩

end Hooks

section Accepted

variable {faults : Prop} {shared : SharedVm} {inspector : HookInspector}
  (installed : shared.slot = some inspector)
  (accepted : inspector.accepts inspector.heard = true)

include installed accepted

/-- The outcome is the one of the read-only execution, marked if it is included. -/
theorem transactDetached_of_accepts (tx : VersionedTransaction) :
    (transactDetached agave tx).run shared =
      (Readonly.executeReadonly agave tx >>= fun answer => readRest >>= fun vm =>
        pure (vm.executionIntoDetached agave.toAgave answer.1 answer.2, answer.1.included)).run
          shared := by
  have live := Readonly.listening_of_accepts installed accepted
  simp only [EStateM.run] at live
  simp only [transactDetached, Readonly.executeReadonly, EStateM.run, Bind.bind, EStateM.bind, live,
    Bool.true_and]

theorem hears_transactDetached (tx : VersionedTransaction) :
    Hears faults inspector.consult
      (((hookPoints agave shared.rest true tx shared.scratch).getD []).map Prod.fst)
      ((transactDetached agave tx).run shared) := by
  rw [transactDetached_of_accepts agave installed accepted]
  exact (Readonly.hears_executeReadonly agave installed accepted tx).bind_returns
    fun _ _ => ⟨_, rfl⟩

theorem transactDetached_returned {tx : VersionedTransaction} {after : SharedVm}
    {outcome : DetachedTx × Bool} (returned : (transactDetached agave tx).run shared = .ok outcome after) :
    outcome = (detachedAnswer agave shared tx, (detachedAnswer agave shared tx).included) ∧
      after.rest = shared.rest := by
  rw [transactDetached_of_accepts agave installed accepted] at returned
  simp only [EStateM.run, Bind.bind, EStateM.bind] at returned
  cases ran : Readonly.executeReadonly agave tx shared with
  | error stop stopped =>
    rw [ran] at returned
    cases returned
  | ok answer executed =>
    obtain ⟨same, kept⟩ := Readonly.executeReadonly_returned agave installed accepted ran
    rw [ran] at returned
    cases returned
    refine ⟨?_, kept⟩
    rw [same, kept]
    rfl

/-- Staging fires no hook. -/
theorem hears_transactCore (tx : VersionedTransaction) :
    Hears faults inspector.consult
      (((hookPoints agave shared.rest true tx shared.scratch).getD []).map Prod.fst)
      ((transactCore agave tx).run shared) := by
  rw [← List.append_nil (List.map _ _)]
  apply (hears_transactDetached agave installed accepted tx).bind
  intro outcome after _ slot
  simp only [EStateM.run, Bind.bind, EStateM.bind, readRest]
  cases after.rest.stageDetached agave.toAgave outcome.1 with
  | error failure => exact hears_nil_of_ok slot
  | ok staged => exact hears_nil_of_ok slot

/-- The staged transaction holds the changes, and reports them if there are any. -/
theorem transactCore_returned {tx : VersionedTransaction} {after : SharedVm}
    {outcome : Except StagedFailure InspectedTx}
    (returned : (transactCore agave tx).run shared = .ok outcome after) :
    match outcome with
    | .error _ => stagedChanges agave shared tx = []
    | .ok staged => staged.changes = stagedChanges agave shared tx ∧
        (staged.inspectorLive = true ∨ staged.changes = []) := by
  simp only [transactCore, EStateM.run, Bind.bind, EStateM.bind] at returned
  cases ran : transactDetached agave tx shared with
  | error stop stopped =>
    rw [ran] at returned
    cases returned
  | ok answer executed =>
    obtain ⟨rfl, kept⟩ := transactDetached_returned agave installed accepted ran
    rw [ran] at returned
    simp only [readRest, kept] at returned
    unfold stagedChanges
    cases staging : shared.rest.stageDetached agave.toAgave (detachedAnswer agave shared tx) with
    | error failure =>
      rw [staging] at returned
      cases returned
      rfl
    | ok staged =>
      rw [staging] at returned
      cases returned
      refine ⟨rfl, ?_⟩
      cases included : (detachedAnswer agave shared tx).included with
      | true => exact .inl rfl
      | false =>
        right
        simp [changes_of_stageDetached agave staging, included]

/-- What comes after staging fires its hooks after those of the execution. -/
theorem hears_transactCore_bind {α : Type} {tx : VersionedTransaction} {later : List HookEvent}
    {next : Except StagedFailure InspectedTx → ReadonlyProgram α}
    (refused : stagedChanges agave shared tx = [] → ∀ failure {inspector : HookInspector} {after},
      after.slot = some inspector → Hears faults inspector later ((next (.error failure)).run after))
    (resolved : ∀ staged : InspectedTx, staged.changes = stagedChanges agave shared tx →
      (staged.inspectorLive = true ∨ staged.changes = []) → ∀ {inspector : HookInspector} {after},
      after.slot = some inspector → Hears faults inspector later ((next (.ok staged)).run after)) :
    Hears faults inspector.consult
      (((hookPoints agave shared.rest true tx shared.scratch).getD []).map Prod.fst ++ later)
      ((transactCore agave tx >>= next).run shared) := by
  apply (hears_transactCore agave installed accepted tx).bind
  intro outcome after ran slot
  have returned := transactCore_returned agave installed accepted ran
  cases outcome with
  | error failure => exact refused returned failure slot
  | ok staged => exact resolved staged returned.1 returned.2 slot

end Accepted

/-- What an inspector hears of a transaction, by every way to run it. -/
structure Observes (shared : SharedVm) (inspector : HookInspector) (tx : VersionedTransaction)
    (events : List HookEvent) (changes : List AccountChangeRecord) : Prop where
  grammar : Readonly.FollowsGrammar agave shared.rest tx shared.scratch
    (executionAnswer agave shared.rest tx shared.scratch).1
    (executionAnswer agave shared.rest tx shared.scratch).2 events
  answered : ∀ answer after, (Readonly.executeReadonly agave tx).run shared = .ok answer after →
    answer = executionAnswer agave shared.rest tx shared.scratch
  readonly : ∀ entry : Readonly.EntryPoint,
    Hears False inspector.consult events ((entry.call agave tx).run shared)
  staged : ∀ staged, shared.rest.stageDetached agave.toAgave (detachedAnswer agave shared tx) =
    .ok staged → changes.map AccountChangeRecord.address =
      (detachedAnswer agave shared tx).postAccounts.map Prod.fst
  resolved : ∀ {σ ε : Type} (resolution : Resolution σ ε),
    Hears (resolution.RollsBack changes) inspector.consult (events ++ resolution.events changes)
      ((transactAnd agave resolution tx).run shared)
  sent : Hears False inspector.consult (events ++ changes.map .accountChange)
    ((sendTransaction agave tx).run shared)

/-- An inspector that accepts the origin is consulted once, and its events follow the grammar. -/
theorem inspector_events_follow_grammar (shared : SharedVm) (inspector : HookInspector)
    (tx : VersionedTransaction) (installed : shared.slot = some inspector)
    (accepted : inspector.accepts inspector.heard = true) :
    ∃ events, Observes agave shared inspector tx events (stagedChanges agave shared tx) := by
  refine ⟨((hookPoints agave shared.rest true tx shared.scratch).getD []).map Prod.fst,
    Readonly.followsGrammar_hookPoints agave shared.rest tx shared.scratch, ?_,
    fun entry => Readonly.hears_call agave installed accepted entry tx, ?_, ?_, ?_⟩
  · intro answer after returned
    exact (Readonly.executeReadonly_returned agave installed accepted returned).1
  · intro staged staging
    simp only [stagedChanges, staging, changes_of_stageDetached agave staging]
    cases included : (detachedAnswer agave shared tx).included with
    | true => simp
    | false => simp [detachedAnswer_of_excluded agave included]
  · intro σ ε resolution
    apply hears_transactCore_bind agave installed accepted
    · intro nothing failure inspector after slot
      rw [nothing, resolution.events_nil]
      exact hears_nil_of_ok slot
    · intro staged same live inspector after slot
      rw [← same]
      exact hears_resolve agave slot resolution live
  · apply hears_transactCore_bind agave installed accepted
    · intro nothing failure inspector after slot
      rw [nothing]
      exact hears_nil_of_ok slot
    · intro staged same live inspector after slot
      rw [← same]
      exact hears_commit slot live

end Inspected

namespace Sample

/-- Accepts every origin and never panics. -/
def quietInspector : HookInspector where
  accepts := fun _ => true
  panics := fun _ _ => false
  heard := []

theorem plain_transfer_observed :
    ∃ events, Inspected.Observes deployingAgave ⟨payingVm, .clean, some quietInspector⟩
      quietInspector plainTx events
      (Inspected.stagedChanges deployingAgave ⟨payingVm, .clean, some quietInspector⟩ plainTx) :=
  Inspected.inspector_events_follow_grammar deployingAgave _ quietInspector plainTx rfl rfl

end Sample

end Hpsvm
