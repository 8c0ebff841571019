import Hpsvm.Errors
import Hpsvm.Foundation.Callbacks
import Hpsvm.Inspected
import Hpsvm.Operations

/-!
# Transaction handlers

The handler registry of `tx_registry.rs` and the entry points of `vm.rs` that route an envelope
through it. A handler sees the VM through a shared reference. It may keep state of its own behind a
lock, it may panic, and it may run transactions on the VM that stage nothing, which go through the
registry again. A handler that keeps doing so never returns: the depth bounds how often calls nest.
Handlers that clone the VM and change the clone are left out.
-/

namespace Hpsvm

open Foundation (Callback CallEnding)
open Layers (TxTag TxValidationError TxError)

namespace Layers

/-- `TxError::transaction_error`. -/
def TxError.transactionError : TxError → TransactionError
  | .unknownTag _ => .unsupportedVersion
  | .validation _ | .execution _ | .database _ => .sanitizeFailure

end Layers

def tagOf (tx : VersionedTransaction) : TxTag :=
  match tx.version with
  | .legacy => .legacy
  | .v0 => .v0
  | .v1 => .v1

/-- What a handler does, with a memory of type `W` for what the handlers keep to themselves. Its calls
are `dispatch_detached` of the VM, which its public entry points lead to. -/
abbrev Handling (W α : Type) := Callback Svm W VersionedTransaction (Except TxError DetachedTx) α

structure TxHandler (W : Type) where
  validate : VersionedTransaction → Handling W (Except TxValidationError Unit)
  execute : VersionedTransaction → Handling W (Except Layers.ExecutionError DetachedTx)

def defaultExecutionHandler (agave : Agave) (W : Type) : TxHandler W where
  validate := fun _ => .done (.ok ())
  execute := fun tx => .look fun host _ => .done (.ok (host.transactDetached agave tx))

structure TxRegistry (W : Type) where
  handlers : TxTag → Option (TxHandler W)

namespace TxRegistry

variable {W : Type}

def new : TxRegistry W := ⟨fun _ => none⟩

def register (registry : TxRegistry W) (tag : TxTag) (handle : TxHandler W) : TxRegistry W :=
  ⟨fun other => if other = tag then some handle else registry.handlers other⟩

def withDefaults (agave : Agave) : TxRegistry W :=
  ((new.register .legacy (defaultExecutionHandler agave W)).register .v0
    (defaultExecutionHandler agave W)).register .v1 (defaultExecutionHandler agave W)

/-- `dispatch`: `validate` first, then `execute`. -/
def dispatch (registry : TxRegistry W) :
    Nat → TxTag → VersionedTransaction → Svm → W → Option (CallEnding (Except TxError DetachedTx) × W)
  | 0, _, _, _, _ => none
  | depth + 1, tag, tx, host, memory =>
    let serve (nested : VersionedTransaction) (memory : W) :=
      registry.dispatch depth (tagOf nested) nested host memory
    match registry.handlers tag with
    | none => some (.returned (.error (.unknownTag tag)), memory)
    | some handle =>
      match (handle.validate tx).run serve host memory with
      | none => none
      | some (.panicked, memory) => some (.panicked, memory)
      | some (.returned (.error error), memory) =>
        some (.returned (.error (.validation error)), memory)
      | some (.returned (.ok ()), memory) =>
        match (handle.execute tx).run serve host memory with
        | none => none
        | some (.panicked, memory) => some (.panicked, memory)
        | some (.returned (.error error), memory) =>
          some (.returned (.error (.execution error)), memory)
        | some (.returned (.ok detached), memory) => some (.returned (.ok detached), memory)

end TxRegistry

/-- The first signature, or the default one. -/
def VersionedTransaction.signature (tx : VersionedTransaction) : Signature :=
  tx.signatures.headD 0

def DetachedTx.forDispatchFailure (error : TxError) (signature : Signature) : DetachedTx where
  info := { signature := signature }
  postAccounts := []
  status := .error error.transactionError
  included := false
  feePayer := none
  fatalError := none

/-- `StagedFailure`, with the errors of all layers. -/
structure RoutedFailure where
  error : Layers.HpsvmError
  result : TransactionResult

/-- What the caller of an operation gets, with the errors of all layers. -/
inductive RoutedAnswer
  | done
  | setUp (result : Except Layers.HpsvmError Unit)
  | transaction (result : TransactionResult)
  | staged (result : Except Layers.HpsvmError TransactionResult)
  | instruction (result : Except Layers.HpsvmError DetachedTx)
  | simulation (result : Except FailedTransactionMetadata SimulatedTransactionInfo)
  | panicked

def RoutedAnswer.ofAnswer : Answer → RoutedAnswer
  | .done => .done
  | .setUp result => .setUp (result.mapError .ofModel)
  | .transaction result => .transaction result
  | .staged result => .staged (result.mapError .ofModel)
  | .instruction result => .instruction (result.mapError .ofModel)
  | .simulation result => .simulation result

/-- The transaction that an operation runs, with the VM or the clone that it runs on. -/
def Operation.runs (agave : Agave) (svm : Svm) : Operation → Option (Svm × VersionedTransaction)
  | sendTransaction tx => some (svm, tx)
  | transactCommit tx => some (svm, tx)
  | transactDiscard tx => some (svm, tx)
  | processInstructionCase case unique =>
    match svm.prepareCase agave case (case.feePayer unique) with
    | (.error _, _) => none
    | (.ok (), working) =>
      some (working, agave.compileMessage [case.instruction] (case.feePayer unique)
        working.blockEnv.latestBlockhash)
  | simulateInstructionChainWithAccounts instructions preAccounts =>
    match svm.setAccounts agave preAccounts with
    | (.error _, _) => none
    | (.ok (), working) =>
      some (working.setSigverify false,
        (working.setSigverify false).instructionChainTransaction agave instructions)
  | _ => none

/-- A VM with the handlers that are registered with it and the memory these share. -/
structure RoutedVm (W : Type) where
  svm : Svm
  registry : TxRegistry W
  memory : W

namespace RoutedVm

variable {W : Type} (agave : Agave) (depth : Nat)

/-- `dispatch_detached`, on the VM or on a clone of it. -/
def dispatchDetached (vm : RoutedVm W) (host : Svm) (tx : VersionedTransaction) :
    Option (CallEnding (Except TxError DetachedTx) × W) :=
  vm.registry.dispatch depth (tagOf tx) tx host vm.memory

/-- The outcome `transact_detached` answers with. -/
def detachedOf (tx : VersionedTransaction) : Except TxError DetachedTx → DetachedTx
  | .ok detached => detached
  | .error error => .forDispatchFailure error tx.signature

/-- What `try_transact` makes of a dispatch. -/
def tryTransactOf : Except TxError DetachedTx → Except Layers.HpsvmError DetachedTx
  | .error error => .error (.ofTx error)
  | .ok detached =>
    match detached.fatalError with
    | some error => .error (.ofModel (.ofExecution error))
    | none => .ok detached

/-- What `transact_core` makes of a dispatch. -/
def stage (svm : Svm) (tx : VersionedTransaction) :
    Except TxError DetachedTx → Except (RoutedFailure × Svm) ExecutedTx
  | .error error =>
    .error (⟨.ofTx error,
      (detachedIntoResultAndDelta (.forDispatchFailure error tx.signature) false).1⟩, svm)
  | .ok detached =>
    match svm.stageDetached agave detached with
    | .error (failure, svm) => .error (⟨.ofModel failure.error, failure.result⟩, svm)
    | .ok staged => .ok staged

/-- What `simulate_instruction_chain` makes of an outcome. -/
def simulated (detached : DetachedTx) :
    Except FailedTransactionMetadata SimulatedTransactionInfo :=
  match detached.status with
  | .error err => .error ⟨err, detached.info⟩
  | .ok () => .ok ⟨detached.info, detached.postAccounts⟩

def withSvm (vm : RoutedVm W) (svm : Svm) (memory : W) : RoutedVm W := ⟨svm, vm.registry, memory⟩

/-- What an entry point makes of the dispatch of its transaction, on the VM or on a clone. -/
def conclude (vm : RoutedVm W) (op : Operation) (host : Svm) (tx : VersionedTransaction)
    (dispatched : Except TxError DetachedTx) (memory : W) : Option (RoutedAnswer × RoutedVm W) :=
  match op with
  | .sendTransaction _ =>
    match stage agave host tx dispatched with
    | .error (failure, svm) => some (.transaction failure.result, vm.withSvm svm memory)
    | .ok staged => some (.transaction staged.commit.1, vm.withSvm staged.commit.2 memory)
  | .transactCommit _ =>
    match stage agave host tx dispatched with
    | .error (failure, svm) => some (.staged (.error failure.error), vm.withSvm svm memory)
    | .ok staged => some (.staged (.ok staged.commit.1), vm.withSvm staged.commit.2 memory)
  | .transactDiscard _ =>
    match stage agave host tx dispatched with
    | .error (failure, svm) => some (.staged (.error failure.error), vm.withSvm svm memory)
    | .ok staged =>
      (staged.discard agave).map fun (result, svm) =>
        (.staged (.ok result), vm.withSvm svm memory)
  | .processInstructionCase _ _ =>
    some (.instruction (tryTransactOf dispatched), vm.withSvm (vm.svm.afterClone host) memory)
  | .simulateInstructionChainWithAccounts _ _ =>
    some (.simulation (simulated (detachedOf tx dispatched)),
      vm.withSvm (vm.svm.afterClone host) memory)
  | _ => none

/-- The VM after a handler has panicked. -/
def unwound (vm : RoutedVm W) (op : Operation) (host : Svm) (memory : W) : RoutedVm W :=
  vm.withSvm (if op.isReadonly then vm.svm.afterClone host else vm.svm) memory

/-- An operation of the VM. Where it runs a transaction, the registry decides how; `none` is a panic
of the VM itself, or a handler that never returns. -/
def act (op : Operation) (vm : RoutedVm W) : Option (RoutedAnswer × RoutedVm W) :=
  match op.runs agave vm.svm with
  | none =>
    (op.act agave vm.svm).map fun (answer, svm) => (.ofAnswer answer, vm.withSvm svm vm.memory)
  | some (host, tx) =>
    match vm.dispatchDetached depth host tx with
    | none => none
    | some (.panicked, memory) => some (.panicked, vm.unwound op host memory)
    | some (.returned dispatched, memory) => vm.conclude agave op host tx dispatched memory

end RoutedVm

/-- An operation, or a call of `register_tx_handler`. -/
inductive RoutedOperation (W : Type)
  | register (tag : TxTag) (handle : TxHandler W)
  | operate (op : Operation)

namespace RoutedOperation

variable {W : Type}

def act (agave : Agave) (depth : Nat) :
    RoutedOperation W → RoutedVm W → Option (RoutedAnswer × RoutedVm W)
  | register tag handle, vm => some (.done, { vm with registry := vm.registry.register tag handle })
  | operate op, vm => vm.act agave depth op

end RoutedOperation

end Hpsvm
