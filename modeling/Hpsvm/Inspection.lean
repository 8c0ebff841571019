import Hpsvm.Foundation.ThreadLocks
import Hpsvm.Setup

/-!
# Inspectors and the locks of an execution

The hooks of `inspector.rs` that receive the VM, and the two locks an execution takes: the mutex
around the inspector slot of a VM, and the lock of the program cache, which a VM shares with its
clones. Neither is reentrant. The other hooks get no VM to call back into; they only take the mutex
for a moment, and are left out.
-/

namespace Hpsvm

open Foundation (ThreadLocks.Program ThreadLocks.Thread ThreadLocks.holding ThreadLocks.touch
  ThreadLocks.modifyState ThreadLocks.outOfFuel)

/-- The read-only entry points a hook can call on the VM it receives, or on a clone of it. -/
inductive ReadonlyCall
  | transactDetached (clone : Bool) (tx : VersionedTransaction)
  | tryTransact (clone : Bool) (tx : VersionedTransaction)
  | simulateTransaction (clone : Bool) (tx : VersionedTransaction)
  | simulateInstructionChain (instructions : List Instruction)
  | simulateInstructionChainWithAccounts (instructions : List Instruction)
      (preAccounts : List (Address × AccountSharedData))

/-- What a read-only entry point returns. -/
inductive CallAnswer
  | detached (outcome : DetachedTx)
  | transacted (outcome : Except HpsvmError DetachedTx)
  | simulated (outcome : Except FailedTransactionMetadata SimulatedTransactionInfo)

/-- The body of a hook, as far as it calls into the VM: each call may depend on the answers before
it. -/
inductive HookProgram
  | done
  | call (entry : ReadonlyCall) (next : CallAnswer → HookProgram)

/-- An `Inspector`, with its answer for the origin of the execution. -/
structure Inspector where
  acceptsOrigin : Bool
  transactionStart : SanitizedTransaction → HookProgram
  transactionEnd : Except TransactionError Unit → HookProgram

inductive LockId
  | inspector (clone : Bool)
  | programCache
deriving DecidableEq

/-- The inspector slot of the VM, and for each execution begun, newest first, whether it observes
an inspector. The slot of a clone is empty. -/
structure InspectionState where
  slot : Option Inspector
  observed : List Bool

abbrev LockProgram := ThreadLocks.Program LockId InspectionState

abbrev LockThread := ThreadLocks.Thread LockId InspectionState

/-! ### The inspector slot -/

/-- `inspector_live`. -/
def inspectorLive (clone : Bool) : LockProgram Bool :=
  ThreadLocks.holding (.inspector clone) (ThreadLocks.modifyState fun state =>
    let installed := if clone then none else state.slot
    (installed.any fun inspector => inspector.acceptsOrigin, state))

/-- `fire_inspector`: the inspector is taken out, its hook runs with the mutex released, and it is
put back. -/
def fireInspector (hook : Inspector → LockProgram Unit) : LockProgram Unit := do
  let taken ← ThreadLocks.holding (.inspector false)
    (ThreadLocks.modifyState fun state => (state.slot, { state with slot := none }))
  match taken with
  | none => pure ()
  | some inspector => do
    hook inspector
    ThreadLocks.holding (.inspector false)
      (ThreadLocks.modifyState fun state => ((), { state with slot := some inspector }))

/-! ### Executions -/

/-- How far an execution gets: not to the lock of the program cache, not to the hooks under it, or
through the instruction loop. -/
inductive Phase
  | unguarded
  | guarded
  | executed (tx : SanitizedTransaction) (result : Except TransactionError Unit)

namespace Svm

variable (agave : Agave)

def phase (vm : Svm) (tx : VersionedTransaction) : Phase :=
  match vm.sanitize agave tx with
  | .error _ => .unguarded
  | .ok sanitized =>
    match vm.checkTransaction agave sanitized with
    | .error _ => .unguarded
    | .ok limits =>
      match vm.accounts.rent? agave with
      | none => .unguarded
      | some _ =>
        match vm.processTransaction agave sanitized.message limits with
        | .error _ => .guarded
        | .ok processed => .executed sanitized processed.outcome.result

def simulateInstructionChain (vm : Svm) (instructions : List Instruction) :
    Except FailedTransactionMetadata SimulatedTransactionInfo :=
  let working := vm.setSigverify false
  working.simulateTransaction agave (working.instructionChainTransaction agave instructions)

end Svm

/-! ### Locks of account writes -/

namespace Accounts

variable (agave : Agave)

/-- A refreshed sysvar cache reads the slot of the program cache and writes it. -/
def refreshSysvarsLocks (pubkey : Address) : LockProgram Unit :=
  if isManagedSysvarAccount pubkey then do
    ThreadLocks.touch .programCache
    ThreadLocks.touch .programCache
  else pure ()

/-- A program is added under the lock, and a rebuilt cache is published under it. -/
def updateProgramLocks (db : Accounts) (pubkey : Address) (account : AccountSharedData) :
    Option ProgramCacheEntry → LockProgram Unit
  | some _ => ThreadLocks.touch .programCache
  | none =>
    if db.hadCachedProgram pubkey then
      match ((db.writeAccount pubkey account).refreshSysvars agave
          pubkey).rebuiltProgramCache agave with
      | .error _ => pure ()
      | .ok _ => ThreadLocks.touch .programCache
    else pure ()

/-- The locks of `add_account`. -/
def addAccountLocks (db : Accounts) (pubkey : Address) (account : AccountSharedData) :
    LockProgram Unit :=
  match db.checkAccount agave pubkey account with
  | .error _ => pure ()
  | .ok programEntry => do
    refreshSysvarsLocks pubkey
    db.updateProgramLocks agave pubkey account programEntry

def addAccountsLocks (db : Accounts) : List (Address × AccountSharedData) → LockProgram Unit
  | [] => pure ()
  | (address, account) :: rest => do
    db.addAccountLocks agave address account
    match db.addAccount agave address account with
    | (.error _, _) => pure ()
    | (.ok (), db) => addAccountsLocks db rest

end Accounts

/-! ### Calls from a hook -/

namespace ReadonlyCall

variable (agave : Agave)

def answer (vm : Svm) : ReadonlyCall → CallAnswer
  | transactDetached _ tx => .detached (vm.transactDetached agave tx)
  | tryTransact _ tx => .transacted (vm.tryTransact agave tx)
  | simulateTransaction _ tx => .simulated (vm.simulateTransaction agave tx)
  | simulateInstructionChain instructions =>
    .simulated (vm.simulateInstructionChain agave instructions)
  | simulateInstructionChainWithAccounts instructions preAccounts =>
    .simulated (vm.simulateInstructionChainWithAccounts agave instructions preAccounts).1

/-- The locks of a call, given those of an execution. -/
def locks (execute : Bool → Svm → VersionedTransaction → LockProgram Unit) (vm : Svm) :
    ReadonlyCall → LockProgram Unit
  | transactDetached clone tx => execute clone vm tx
  | tryTransact clone tx => execute clone vm tx
  | simulateTransaction clone tx => execute clone vm tx
  | simulateInstructionChain instructions =>
    let working := vm.setSigverify false
    execute true working (working.instructionChainTransaction agave instructions)
  | simulateInstructionChainWithAccounts instructions preAccounts => do
    vm.accounts.addAccountsLocks agave preAccounts
    match vm.setAccounts agave preAccounts with
    | (.error _, _) => pure ()
    | (.ok (), working) =>
      let working := working.setSigverify false
      execute true working (working.instructionChainTransaction agave instructions)

end ReadonlyCall

namespace HookProgram

variable (agave : Agave)

def locks (execute : Bool → Svm → VersionedTransaction → LockProgram Unit) (vm : Svm) :
    HookProgram → LockProgram Unit
  | done => pure ()
  | call entry next => do
    entry.locks agave execute vm
    (next (entry.answer agave vm)).locks execute vm

end HookProgram

/-- The part of an execution between `transaction_start` and `transaction_end`. -/
def hookLocks (agave : Agave) (execute : Bool → Svm → VersionedTransaction → LockProgram Unit)
    (live : Bool) (vm : Svm) (sanitized : SanitizedTransaction)
    (result : Except TransactionError Unit) : LockProgram Unit :=
  if live then do
    fireInspector fun inspector => (inspector.transactionStart sanitized).locks agave execute vm
    fireInspector fun inspector => (inspector.transactionEnd result).locks agave execute vm
  else pure ()

/-- The program cache is locked from before the accounts are loaded until after the last hook. -/
def processTransactionLocks (agave : Agave)
    (execute : Bool → Svm → VersionedTransaction → LockProgram Unit) (live : Bool) (vm : Svm) :
    Phase → LockProgram Unit
  | .unguarded => pure ()
  | .guarded => ThreadLocks.touch .programCache
  | .executed sanitized result =>
    ThreadLocks.holding .programCache (hookLocks agave execute live vm sanitized result)

/-- `observe_tier` reads the program cache if the policy is lazy. -/
def observeTierLocks (lazy : Bool) : LockProgram Unit :=
  if lazy then ThreadLocks.touch .programCache else pure ()

/-- The locks of `execute_readonly`, of a VM or of a clone, with executions nested at most as deep
as the fuel. -/
def executeLocks (agave : Agave) (lazy : Bool) :
    Nat → Bool → Svm → VersionedTransaction → LockProgram Unit
  | 0, _, _, _ => ThreadLocks.outOfFuel
  | fuel + 1, clone, vm, tx => do
    let live ← inspectorLive clone
    ThreadLocks.modifyState fun state => ((), { state with observed := live :: state.observed })
    processTransactionLocks agave (executeLocks agave lazy fuel) live vm (vm.phase agave tx)
    observeTierLocks lazy

end Hpsvm
