import Hpsvm.Readonly

/-!
# Staged transactions under an inspector

What `transact_core`, `commit`, `commit_with` and `discard` do with the inspector. Whether it takes
part is decided by the execution and kept in the staged transaction. A commit then reports every
recorded change to it, after the sink has taken them and before the history is written.
-/

namespace Hpsvm

open Foundation (Unwinding.readRest Unwinding.writeRest Unwinding.listening Unwinding.panic)

/-- `ExecutedTx`, with its `inspector_live`. -/
structure InspectedTx extends ExecutedTx where
  inspectorLive : Bool

/-- The part of `transact_core` after the execution. -/
def Svm.stageDetached (agave : Agave) (vm : Svm) (detached : DetachedTx) :
    Except (StagedFailure × Svm) ExecutedTx :=
  match detached.fatalError with
  | some error =>
    .error (⟨.ofExecution error, (detachedIntoResultAndDelta detached false).1⟩, vm)
  | none =>
    let checkpoint := vm.accounts.checkpoint
    let (result, delta) := detachedIntoResultAndDelta detached vm.history.isEnabled
    match vm.accounts.syncAccounts agave delta.postAccounts with
    | (.error error, accounts) =>
      .error (⟨error, result⟩, { vm with accounts := accounts.rollback checkpoint })
    | (.ok (), accounts) =>
      .ok
        { vm := { vm with accounts := accounts }
          checkpoint := checkpoint
          result := result
          historyEntry := delta.historyEntry
          cacheDirty := stagingTouchesCaches detached.postAccounts vm.accounts
          changes := delta.postAccounts.map fun (address, after) =>
            ⟨address, vm.accounts.getAccount address, after.visible⟩ }

theorem Svm.transactCore_eq_stageDetached (agave : Agave) (vm : Svm) (tx : VersionedTransaction) :
    vm.transactCore agave tx = vm.stageDetached agave (vm.transactDetached agave tx) := rfl

namespace Inspected

variable (agave : BatchAgave)

/-- `transact_detached`, with the `inspector_live` of the outcome. Only an execution that gets
through `process_transaction` sets it, and only such an execution is included. -/
def transactDetached (tx : VersionedTransaction) : ReadonlyProgram (DetachedTx × Bool) := do
  let live ← Unwinding.listening
  let (execution, logs) ← Readonly.executeImpl agave live tx
  let vm ← Unwinding.readRest
  pure (vm.executionIntoDetached agave.toAgave execution logs, live && execution.included)

def transactCore (tx : VersionedTransaction) :
    ReadonlyProgram (Except StagedFailure InspectedTx) := do
  let (detached, live) ← transactDetached agave tx
  let vm ← Unwinding.readRest
  match vm.stageDetached agave.toAgave detached with
  | .error (failure, vm) => do
    Unwinding.writeRest vm
    pure (.error failure)
  | .ok staged => do
    Unwinding.writeRest staged.vm
    pure (.ok { staged with inspectorLive := live })

/-- `on_account_change`, for one change after the other. -/
def onAccountChanges (live : Bool) : List AccountChangeRecord → ReadonlyProgram Unit
  | [] => pure ()
  | record :: rest => do
    Readonly.onHook live (.accountChange record)
    onAccountChanges live rest

def commit (staged : InspectedTx) : ReadonlyProgram TransactionResult := do
  onAccountChanges staged.inspectorLive staged.changes
  Unwinding.writeRest staged.toExecutedTx.commit.2
  pure staged.result

/-- The rollback of `discard` and of a failed `commit_with`. -/
def unstage (staged : InspectedTx) : ReadonlyProgram Unit :=
  let accounts := staged.vm.accounts.rollback staged.checkpoint
  if staged.cacheDirty then
    match (accounts.rebuildSysvarCache agave.toAgave).rebuildProgramCache agave.toAgave with
    | (.error _, accounts) => do
      Unwinding.writeRest { staged.vm with accounts := accounts }
      Unwinding.panic
    | (.ok (), accounts) => Unwinding.writeRest { staged.vm with accounts := accounts }
  else Unwinding.writeRest { staged.vm with accounts := accounts }

def commitWith {σ ε : Type} (sink : σ → AccountChangeRecord → Except ε Unit × σ) (state : σ)
    (staged : InspectedTx) : ReadonlyProgram (Except ε TransactionResult × σ) :=
  match ExecutedTx.streamChanges sink staged.changes state with
  | (.error error, state) => do
    unstage agave staged
    pure (.error error, state)
  | (.ok (), state) => do
    let result ← commit staged
    pure (.ok result, state)

def discard (staged : InspectedTx) : ReadonlyProgram TransactionResult := do
  unstage agave staged
  pure staged.result

def sendTransaction (tx : VersionedTransaction) : ReadonlyProgram TransactionResult := do
  match ← transactCore agave tx with
  | .error failure => pure failure.result
  | .ok staged => commit staged

/-- The ways to resolve a staged transaction. -/
inductive Resolution (σ ε : Type)
  | commit
  | commitWith (sink : σ → AccountChangeRecord → Except ε Unit × σ) (state : σ)
  | discard

def Resolution.resolve {σ ε : Type} (staged : InspectedTx) :
    Resolution σ ε → ReadonlyProgram Unit
  | commit => do
    let _ ← Inspected.commit staged
  | commitWith sink state => do
    let _ ← Inspected.commitWith agave sink state staged
  | discard => do
    let _ ← Inspected.discard agave staged

/-- `transact`, and what becomes of the staged transaction. -/
def transactAnd {σ ε : Type} (resolution : Resolution σ ε) (tx : VersionedTransaction) :
    ReadonlyProgram Unit := do
  match ← transactCore agave tx with
  | .error _ => pure ()
  | .ok staged => resolution.resolve agave staged

end Inspected

end Hpsvm
