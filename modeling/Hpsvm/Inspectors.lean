import Hpsvm.Inspected
import Hpsvm.Operations

/-!
# Inspectors and the origins of transactions

The `Inspector` trait with its origins (`inspector.rs`), the inspectors of `hpsvm-inspectors`, and a
VM that one is installed on. The VM consults the inspector once for each execution, with the origin
that the execution has; the hooks fire if it accepts. An airdrop and the stages of a batch run under
origins of their own. Clones and the workers of a parallel stage carry no inspector.
-/

namespace Hpsvm

open Foundation (Unwinding.Unwind)

inductive TransactionOrigin
  | user
  | internalAirdrop
  | batch (stageIndex transactionIndex : Nat)
deriving DecidableEq, Repr

def TransactionOrigin.isUser : TransactionOrigin → Bool
  | user => true
  | _ => false

/-- An implementation of the `Inspector` trait with state `σ`, and the default bodies of its methods.
A consultation takes `&self`, but may change the state behind a lock. A hook sees the VM that the
execution started on; its state changes up to the point where it panics, if it does. -/
structure InspectorImpl (σ : Type) where
  acceptsOrigin : TransactionOrigin → σ → Bool × σ := fun origin state => (origin.isUser, state)
  hook : Svm → HookEvent → σ → σ := fun _ _ state => state
  panics : Svm → HookEvent → σ → Bool := fun _ _ _ => false

/-! ### Filters -/

inductive OriginFilter
  | userOnly
  | all
  | batchStages
  | internalAirdrop
  | nonUser
deriving DecidableEq, Repr

def OriginFilter.allows : OriginFilter → TransactionOrigin → Bool
  | .all, _ => true
  | .userOnly, .user => true
  | .batchStages, .batch _ _ => true
  | .internalAirdrop, .internalAirdrop => true
  | .nonUser, .user => false
  | .nonUser, _ => true
  | _, _ => false

/-- `OriginFiltered`. The inner inspector is not consulted about an origin that the filter refuses. -/
def InspectorImpl.originFiltered {σ : Type} (inner : InspectorImpl σ) (filter : OriginFilter) :
    InspectorImpl σ :=
  { inner with
    acceptsOrigin := fun origin state =>
      if filter.allows origin then inner.acceptsOrigin origin state else (false, state) }

/-! ### The inspectors of `hpsvm-inspectors` -/

def noopInspector : InspectorImpl Unit := {}

/-- `RecordingInspector`; its state is what its `EventLog` holds. -/
def recordingInspector (agave : Agave) : InspectorImpl (List String) where
  hook := fun _ event log =>
    match event with
    | .transactionStart _ => log ++ ["start"]
    | .instructionStart index programId =>
      log ++ [s!"instruction_start {index} {agave.addressText programId}"]
    | .instructionEnd index programId =>
      log ++ [s!"instruction_end {index} {agave.addressText programId}"]
    | .transactionEnd result => log ++ [s!"end {result.isOk}"]
    | .log _ => log
    | .accountChange _ => log

/-- `OriginRecordingInspector`; its state is what its `OriginLog` holds. -/
def originRecordingInspector : InspectorImpl (List TransactionOrigin) where
  acceptsOrigin := fun origin log => (true, log ++ [origin])

/-- The number of `usize` values. -/
def usizeCount : Nat := 2 ^ 64

/-- `fetch_add` of one, which wraps around. -/
def countOne (counter : Nat) : Nat := (counter + 1) % usizeCount

/-- `CountingInspector`; its state is the counter of top-level instructions. -/
def countingInspector : InspectorImpl Nat where
  hook := fun _ event counter =>
    match event with
    | .instructionStart _ _ => countOne counter
    | _ => counter

structure OriginCounters where
  userInstructions : Nat := 0
  internalAirdrops : Nat := 0
  lastOrigin : Option TransactionOrigin := none
deriving DecidableEq, Repr

namespace OriginCounters

/-- The `accepts_origin` of `OriginCountingInspector`: it keeps the origin for the hooks to come. -/
def acceptsOrigin (origin : TransactionOrigin) (counters : OriginCounters) : Bool × OriginCounters :=
  let accepted := match origin with
    | .user => true
    | .internalAirdrop => true
    | .batch _ _ => false
  (accepted, { counters with lastOrigin := some origin })

def instructionStart (counters : OriginCounters) : OriginCounters :=
  match counters.lastOrigin with
  | some .user => { counters with userInstructions := countOne counters.userInstructions }
  | some .internalAirdrop => { counters with internalAirdrops := countOne counters.internalAirdrops }
  | _ => counters

end OriginCounters

def originCountingInspector : InspectorImpl OriginCounters where
  acceptsOrigin := OriginCounters.acceptsOrigin
  hook := fun _ event counters =>
    match event with
    | .instructionStart _ _ => counters.instructionStart
    | _ => counters

/-! ### A VM with an inspector -/

/-- A VM with the scratch part of its program cache, the state of the inspector that is installed and
the origin of what it executes. -/
structure ObservedVm (σ : Type) where
  vm : Svm
  scratch : TxScratch
  inspector : Option σ
  inspectionOrigin : TransactionOrigin

/-- What an observed VM does: it returns, or unwinds and leaves the VM as it is then. -/
abbrev ObservedProgram (σ α : Type) := EStateM Unwinding.Unwind (ObservedVm σ) α

/-- The end of a `catch_unwind` whose caller restores something and goes on unwinding. -/
def restoring {σ α : Type} (enter : ObservedVm σ → ObservedVm σ)
    (restore : ObservedVm σ → ObservedVm σ → ObservedVm σ) (op : ObservedProgram σ α) :
    ObservedProgram σ α := fun before =>
  match op.run (enter before) with
  | .ok value after => .ok value (restore before after)
  | .error payload after => .error payload (restore before after)

def withTransactionOrigin {σ α : Type} (origin : TransactionOrigin) (op : ObservedProgram σ α) :
    ObservedProgram σ α :=
  restoring (fun observed => { observed with inspectionOrigin := origin })
    (fun before after => { after with inspectionOrigin := before.inspectionOrigin }) op

def withTemporaryAccountSource {σ α : Type} (source : AccountSource) (op : ObservedProgram σ α) :
    ObservedProgram σ α :=
  restoring (fun observed => { observed with vm := observed.vm.setAccountSource source })
    (fun before after =>
      { after with vm := after.vm.setAccountSource before.vm.accounts.source }) op

/-- The part of `process_instruction_chain` that switches the signature verification off. -/
def withoutSigverify {σ α : Type} (op : ObservedProgram σ α) : ObservedProgram σ α :=
  restoring (fun observed => { observed with vm := observed.vm.setSigverify false })
    (fun before after =>
      { after with vm := after.vm.setSigverify before.vm.version.sigverify }) op

namespace InspectorImpl

variable {σ α : Type} (inspector : InspectorImpl σ) (agave : BatchAgave)

/-- The state after some hooks. -/
def hooked (vm : Svm) (events : List HookEvent) (state : σ) : σ :=
  events.foldl (fun state event => inspector.hook vm event state) state

/-- The inspector as an execution with the origin finds it. -/
def listener (vm : Svm) (origin : TransactionOrigin) (state : σ) : HookInspector where
  accepts := fun _ => (inspector.acceptsOrigin origin state).1
  panics := fun heard event =>
    inspector.panics vm event (inspector.hooked vm heard (inspector.acceptsOrigin origin state).2)
  heard := []

/-- The state that an execution leaves, by whether it consulted the inspector and what that heard. -/
def resumed (vm : Svm) (origin : TransactionOrigin) (state : σ) (listener : HookInspector) : σ :=
  inspector.hooked vm listener.heard
    (if listener.consulted = 0 then state else (inspector.acceptsOrigin origin state).2)

/-- Runs an execution on the VM, under the inspector that is installed. -/
def observe (program : ReadonlyProgram α) : ObservedProgram σ α := fun observed =>
  let after (shared : SharedVm) : ObservedVm σ :=
    { observed with
      vm := shared.rest
      scratch := shared.scratch
      inspector := observed.inspector.bind fun state =>
        shared.slot.map (inspector.resumed observed.vm observed.inspectionOrigin state) }
  let slot := observed.inspector.map (inspector.listener observed.vm observed.inspectionOrigin)
  match program.run ⟨observed.vm, observed.scratch, slot⟩ with
  | .ok value shared => .ok value (after shared)
  | .error payload shared => .error payload (after shared)

/-- A call that executes nothing on the VM itself; `none` is a panic. -/
def unobserved (call : Svm → Option (α × Svm)) : ObservedProgram σ α := fun observed =>
  match call observed.vm with
  | none => .error .panic observed
  | some (value, vm) => .ok value { observed with vm := vm }

def sendTransaction (tx : VersionedTransaction) : ObservedProgram σ TransactionResult :=
  inspector.observe (Inspected.sendTransaction agave tx)

def processInstructionChain (instructions : List Instruction) :
    ObservedProgram σ TransactionResult := fun observed =>
  let tx := observed.vm.instructionChainTransaction agave.toAgave instructions
  (withoutSigverify (inspector.sendTransaction agave tx)).run observed

def processInstructionChainWithAccounts (instructions : List Instruction)
    (preAccounts : List (Address × AccountSharedData)) : ObservedProgram σ TransactionResult := do
  match ← unobserved fun vm => some (vm.setAccounts agave.toAgave preAccounts) with
  | .error _ => pure (.error ⟨.instructionError 0 .invalidAccountData, {}⟩)
  | .ok () => inspector.processInstructionChain agave instructions

/-- `airdrop`, given the signed transfer it builds. -/
def airdrop (tx : VersionedTransaction) : ObservedProgram σ TransactionResult :=
  withTemporaryAccountSource .empty
    (withTransactionOrigin .internalAirdrop (inspector.sendTransaction agave tx))

/-- A stage of one transaction runs on the VM itself, under the origin of its place in the plan. -/
def runStage (stageIndex : Nat) (schedule : Schedule) (stage : TransactionBatchStage)
    (transactions : List VersionedTransaction) (results : List (Option TransactionResult)) :
    ObservedProgram σ (Except TransactionBatchError (List (Option TransactionResult))) :=
  match stage.transactionIndexes with
  | [index] =>
    match transactions[index]? with
    | none => throw .panic
    | some tx => do
      let result ← withTransactionOrigin (.batch stageIndex index) (inspector.sendTransaction agave tx)
      pure (.ok (results.set index (some result)))
  | _ => unobserved fun vm => vm.runParallelStage agave.toAgave schedule stage transactions results

def runStages (schedule : Nat → Schedule) (transactions : List VersionedTransaction) :
    Nat → List TransactionBatchStage → List (Option TransactionResult) →
      ObservedProgram σ (Except TransactionBatchError (List (Option TransactionResult)))
  | _, [], results => pure (.ok results)
  | stageIndex, stage :: rest, results => do
    match ← inspector.runStage agave stageIndex (schedule stageIndex) stage transactions results with
    | .error error => pure (.error error)
    | .ok results => runStages schedule transactions (stageIndex + 1) rest results

/-- The results of a batch, one for each transaction. -/
def collectResults (plan : TransactionBatchPlan) :
    Except TransactionBatchError (List (Option TransactionResult)) →
      ObservedProgram σ (Except TransactionBatchError TransactionBatchExecutionResult)
  | .error error => pure (.error error)
  | .ok results =>
    match results.mapM id with
    | none => throw .panic
    | some results => pure (.ok ⟨plan, results⟩)

def sendTransactionBatch (schedule : Nat → Schedule) (transactions : List VersionedTransaction) :
    ObservedProgram σ (Except TransactionBatchError TransactionBatchExecutionResult) := do
  let observed ← get
  match observed.vm.planTransactionBatch agave.toAgave transactions with
  | .error error => pure (.error error)
  | .ok plan => do
    let results ← inspector.runStages agave schedule transactions 0 plan.stages
      (transactions.map fun _ => none)
    collectResults plan results

end InspectorImpl

/-! ### Operations -/

/-- The operations that execute a transaction on the VM itself. -/
def PublicOperation.executes : PublicOperation → Bool
  | operation (.sendTransaction _) => true
  | operation (.transactCommit _) => true
  | operation (.transactDiscard _) => true
  | operation _ => false
  | transactCommitWith _ _ => true
  | processInstructionChainWithAccounts _ _ => true
  | airdrop _ => true
  | sendTransactionBatch _ _ => true
  | _ => false

abbrev ChangeSink := Inspected.Resolution (List AccountChangeRecord) Unit

/-- The public operations as an inspector tells them apart. -/
inductive ObservedOperation
  | sendTransaction (tx : VersionedTransaction)
  | simulateTransaction (tx : VersionedTransaction)
  | tryTransact (tx : VersionedTransaction)
  | transact (resolution : ChangeSink) (tx : VersionedTransaction)
  | processInstructionChainWithAccounts (instructions : List Instruction)
      (preAccounts : List (Address × AccountSharedData))
  | airdrop (tx : VersionedTransaction)
  | sendTransactionBatch (schedule : Nat → Schedule) (transactions : List VersionedTransaction)
  | other (op : PublicOperation) (quiet : op.executes = false)

inductive ObservedAnswer
  | done
  | transaction (result : TransactionResult)
  | simulation (result : Except FailedTransactionMetadata SimulatedTransactionInfo)
  | detached (result : Except HpsvmError DetachedTx)
  | batch (result : Except TransactionBatchError TransactionBatchExecutionResult)

namespace ObservedOperation

variable {σ : Type} (agave : BatchAgave)

/-- The operation on a VM with an inspector. -/
def perform (inspector : InspectorImpl σ) : ObservedOperation → ObservedProgram σ ObservedAnswer
  | sendTransaction tx => .transaction <$> inspector.sendTransaction agave tx
  | simulateTransaction tx =>
    .simulation <$> inspector.observe (Readonly.simulateTransaction agave tx)
  | tryTransact tx => .detached <$> inspector.observe (Readonly.tryTransact agave tx)
  | transact resolution tx =>
    (fun _ => .done) <$> inspector.observe (Inspected.transactAnd agave resolution tx)
  | processInstructionChainWithAccounts instructions preAccounts =>
    .transaction <$> inspector.processInstructionChainWithAccounts agave instructions preAccounts
  | airdrop tx => .transaction <$> inspector.airdrop agave tx
  | sendTransactionBatch schedule transactions =>
    .batch <$> inspector.sendTransactionBatch agave schedule transactions
  | other op _ => InspectorImpl.unobserved fun vm =>
    (op.step agave.toAgave vm).map fun vm => (.done, vm)

/-- What becomes of a staged transaction, without an inspector. -/
def resolved (agave : Agave) (staged : ExecutedTx) : ChangeSink → Option Svm
  | .commit => some staged.commit.2
  | .commitWith sink state => (staged.commitWith agave sink state).map fun (_, vm, _) => vm
  | .discard => (staged.discard agave).map Prod.snd

/-- The operation on a VM without an inspector; `none` is a panic. -/
def plain (agave : Agave) : ObservedOperation → Svm → Option (ObservedAnswer × Svm)
  | sendTransaction tx, vm =>
    let (result, vm) := vm.sendTransaction agave tx
    some (.transaction result, vm)
  | simulateTransaction tx, vm => some (.simulation (vm.simulateTransaction agave tx), vm)
  | tryTransact tx, vm => some (.detached (vm.tryTransact agave tx), vm)
  | transact resolution tx, vm =>
    match vm.transact agave tx with
    | .error (_, vm) => some (.done, vm)
    | .ok staged => (resolved agave staged resolution).map fun vm => (.done, vm)
  | processInstructionChainWithAccounts instructions preAccounts, vm =>
    let (result, vm) := vm.processInstructionChainWithAccounts agave instructions preAccounts
    some (.transaction result, vm)
  | airdrop tx, vm =>
    let (result, vm) := vm.airdrop agave tx
    some (.transaction result, vm)
  | sendTransactionBatch schedule transactions, vm =>
    (vm.sendTransactionBatch agave schedule transactions).map fun outcome =>
      (.batch outcome.1, outcome.2)
  | other op _, vm => (op.step agave vm).map fun vm => (.done, vm)

/-- A run under an inspector, up to a panic. -/
def performAll (inspector : InspectorImpl σ) :
    List ObservedOperation → ObservedProgram σ (List ObservedAnswer)
  | [] => pure []
  | op :: rest => do
    let answer ← op.perform agave inspector
    let answers ← performAll inspector rest
    pure (answer :: answers)

/-- The run without an inspector. -/
def plainAll (agave : Agave) :
    List ObservedOperation → Svm → Option (List ObservedAnswer × Svm)
  | [], vm => some ([], vm)
  | op :: rest, vm =>
    (op.plain agave vm).bind fun (answer, vm) =>
      (plainAll agave rest vm).map fun (answers, vm) => (answer :: answers, vm)

end ObservedOperation

end Hpsvm
