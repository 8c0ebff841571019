import Hpsvm.Foundation.Unwinding
import Hpsvm.Transact

/-!
# Read-only execution under the program cache

An execution holds the program cache for writing, works in its scratch part and drains it before it
gives the cache back. The hooks of the inspector run in between and may panic. parking_lot's locks
are not poisoned: unwinding releases the cache as it is.

Hooks that call back into the VM wait for the lock they hold and never return; they have no outcome
here. The tier sweep after an execution compiles entries in place and replaces none.
-/

namespace Hpsvm

open Foundation (Unwinding.Program Unwinding.Shared Unwinding.Listener Unwinding.readRest
  Unwinding.modifyScratch Unwinding.listening Unwinding.announce)

/-- The flags of `ProgramCacheForTxBatch`. -/
structure BatchFlags where
  hitMaxLimit : Bool
  loadedMissing : Bool
  mergedModified : Bool
deriving DecidableEq

/-- The part of `ProgramCacheForTxBatch` that belongs to the running transaction. -/
structure TxScratch where
  modifiedEntries : AddressMap ProgramCacheEntry
  flags : BatchFlags

/-- What draining leaves. -/
def TxScratch.clean : TxScratch := ⟨∅, ⟨false, false, false⟩⟩

/-- The runtime, with what an instruction makes of the flags of the cache it runs on. -/
structure BatchAgave extends Agave where
  batchFlags : ∀ {keys : List Address}, EnvironmentConfig → ProgramCache → SanitizedMessage → Nat →
    InvokeContext keys → BatchFlags → BatchFlags

/-- The hooks that an execution and a commit fire. -/
inductive HookEvent
  | transactionStart (tx : SanitizedTransaction)
  | instructionStart (index : Nat) (programId : Address)
  | instructionEnd (index : Nat) (programId : Address)
  | log (message : String)
  | transactionEnd (result : Except TransactionError Unit)
  | accountChange (record : AccountChangeRecord)

/-- An inspector as its hooks see it: which events it panics at, and whether it accepts the origin
of the execution. -/
abbrev HookInspector := Unwinding.Listener HookEvent

/-- A VM with the scratch part of its program cache and the slot of its inspector. -/
abbrev SharedVm := Unwinding.Shared Svm TxScratch HookEvent

abbrev ReadonlyProgram (α : Type) := Unwinding.Program Svm TxScratch HookEvent α

namespace Svm

variable (agave : BatchAgave) {keys : List Address}

/-- The scratch after a top-level instruction. The context lends the modified entries of the cache,
so those it ends with are those the cache is left with. -/
def scratchAfter (vm : Svm) (config : EnvironmentConfig) (message : SanitizedMessage) (index : Nat)
    (instruction : CompiledInstruction) (context : InvokeContext keys) (scratch : TxScratch) :
    TxScratch where
  modifiedEntries := (vm.processTopLevelInstruction agave.toAgave config message index instruction
    context).context.modifiedEntries
  flags :=
    match vm.findPrecompile (message.accountKeys.getD instruction.programIdIndex 0) with
    | some _ => scratch.flags
    | none => agave.batchFlags config vm.accounts.programsCache message index context scratch.flags

end Svm

namespace Readonly

open Svm (MessageOutcome ProcessedTransaction)

variable (agave : BatchAgave) {keys : List Address}

/-- The dispatchers of the hooks: under `NoInspector` they are empty. -/
def onHook (live : Bool) (event : HookEvent) : ReadonlyProgram Unit :=
  if live then Unwinding.announce event else pure ()

/-- `drain_modified_entries`, and the reset of the flags. -/
def drain : ReadonlyProgram Unit := Unwinding.modifyScratch fun _ => ((), .clean)

def processInstructions (live : Bool) (config : EnvironmentConfig) (message : SanitizedMessage) :
    Nat → List CompiledInstruction → InvokeContext keys → Nat → ReadonlyProgram (MessageOutcome keys)
  | _, [], context, consumed => pure ⟨.ok (), context, consumed⟩
  | index, instruction :: rest, context, consumed => do
    let programId := message.accountKeys.getD instruction.programIdIndex 0
    onHook live (.instructionStart index programId)
    let vm ← Unwinding.readRest
    let outcome ← Unwinding.modifyScratch fun scratch =>
      (vm.processTopLevelInstruction agave.toAgave config message index instruction context,
        vm.scratchAfter agave config message index instruction context scratch)
    let consumed := saturatingAdd consumed outcome.computeUnitsConsumed
    -- The end hook fires for failed instructions too.
    onHook live (.instructionEnd index programId)
    match outcome.result with
    | .error error =>
      pure ⟨.error (.instructionError (index % 256) error), outcome.context, consumed⟩
    | .ok () => processInstructions live config message (index + 1) rest outcome.context consumed

def processMessage (live : Bool) (config : EnvironmentConfig) (message : SanitizedMessage)
    (context : InvokeContext keys) : ReadonlyProgram (MessageOutcome keys) :=
  match agave.prepareTopLevelInstructions config message context with
  | .error (index, error) => pure ⟨.error (.instructionError index error), context, 0⟩
  | .ok context => do
    Unwinding.modifyScratch fun scratch =>
      ((), { scratch with modifiedEntries := context.modifiedEntries })
    processInstructions agave live config message 0 message.instructions context 0

/-- The recorded log, message by message. -/
def onLogs (live : Bool) : List String → ReadonlyProgram Unit
  | [] => pure ()
  | message :: rest => do
    onHook live (.log message)
    onLogs live rest

/-- The context of an execution, with the modified entries that the cache lends it. -/
def lentContext (config : EnvironmentConfig) (accounts : List (Address × AccountSharedData))
    (scratch : TxScratch) : InvokeContext (accounts.map Prod.fst) :=
  { Svm.createTransactionContext accounts config.computeBudget with
    modifiedEntries := scratch.modifiedEntries }

/-- The part of `process_transaction` from the creation of the context on. -/
def processLoaded (live : Bool) (tx : SanitizedTransaction) (config : EnvironmentConfig)
    (accounts : List (Address × AccountSharedData)) :
    ReadonlyProgram (MessageOutcome (accounts.map Prod.fst)) := do
  let context ← Unwinding.modifyScratch fun scratch =>
    (lentContext config accounts scratch, scratch)
  onHook live (.transactionStart tx)
  let outcome ← processMessage agave live config tx.message context
  onLogs live outcome.context.logs
  onHook live (.transactionEnd outcome.result)
  drain
  pure outcome

def processTransaction (live : Bool) (tx : SanitizedTransaction) (limits : ComputeBudgetLimits) :
    ReadonlyProgram (Except ExecutionResult ProcessedTransaction) := do
  let vm ← Unwinding.readRest
  match vm.accounts.rent? agave.toAgave with
  | none => pure (.error (.rejected .sanitizeFailure 0))
  | some rent =>
    let fee := vm.transactionFee agave.toAgave tx.message limits
    match vm.loadAccounts agave.toAgave tx.message rent fee 0 tx.message.accountKeys none with
    | .error result => pure (.error result)
    | .ok (_, none) => pure (.error (.rejected .accountNotFound fee))
    | .ok (accounts, some payer) =>
      match vm.resolveProgramIndices accounts fee tx.message.instructions [] with
      | .error result => pure (.error result)
      | .ok (_, failures) => do
        let config := vm.environmentConfig agave.toAgave tx.message limits rent
        let outcome ← processLoaded agave live tx config accounts
        pure (.ok ⟨_, outcome, fee, some payer, failures⟩)

def executeSanitizedTransaction (live : Bool) (tx : SanitizedTransaction) :
    ReadonlyProgram (ExecutionResult × List String) := do
  let vm ← Unwinding.readRest
  match vm.checkTransaction agave.toAgave tx with
  | .error result => pure (result, [])
  | .ok limits => do
    let processed ← processTransaction agave live tx limits
    match processed with
    | .error result => pure (result, [])
    | .ok processed =>
      pure (Svm.executionResultIfContext tx processed, processed.outcome.context.logs)

/-- `execute_readonly_impl`. -/
def executeImpl (live : Bool) (tx : VersionedTransaction) :
    ReadonlyProgram (ExecutionResult × List String) := do
  let vm ← Unwinding.readRest
  match vm.sanitize agave.toAgave tx with
  | .error result => pure (result, [])
  | .ok sanitized => executeSanitizedTransaction agave live sanitized

/-- `execute_readonly`: whether hooks fire is decided once. -/
def executeReadonly (tx : VersionedTransaction) :
    ReadonlyProgram (ExecutionResult × List String) := do
  let live ← Unwinding.listening
  executeImpl agave live tx

/-! ### Entry points -/

def transactDetached (tx : VersionedTransaction) : ReadonlyProgram DetachedTx := do
  let (execution, logs) ← executeReadonly agave tx
  let vm ← Unwinding.readRest
  pure (vm.executionIntoDetached agave.toAgave execution logs)

def tryTransact (tx : VersionedTransaction) : ReadonlyProgram (Except HpsvmError DetachedTx) := do
  let detached ← transactDetached agave tx
  match detached.fatalError with
  | some error => pure (.error (.ofExecution error))
  | none => pure (.ok detached)

def simulateTransaction (tx : VersionedTransaction) :
    ReadonlyProgram (Except FailedTransactionMetadata SimulatedTransactionInfo) := do
  let detached ← transactDetached agave tx
  match detached.status with
  | .error err => pure (.error ⟨err, detached.info⟩)
  | .ok () => pure (.ok ⟨detached.info, detached.postAccounts⟩)

end Readonly

end Hpsvm
