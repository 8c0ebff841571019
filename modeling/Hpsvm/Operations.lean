import Hpsvm.Batch
import Hpsvm.Setup

/-!
# The operations of a VM

The public operations as data, so that a run of a VM is a list of them. An operation answers what
its caller gets, together with the VM it leaves; `none` is a panic.
-/

namespace Hpsvm

inductive Operation
  | addBuiltin (programId : Address) (entrypoint : Nat)
  | addProgram (programId : Address) (programBytes : List UInt8)
  | addProgramWithLoader (programId : Address) (programBytes : List UInt8) (loaderId : Address)
  | setAccount (address : Address) (account : AccountSharedData)
  | setSysvar (sysvar : Sysvar) (data : List UInt8)
  | warpToSlot (slot : Nat)
  | setFeatureSet (featureSet : FeatureSet)
  | registerCustomSyscall (syscall : CustomSyscall)
  | sendTransaction (tx : VersionedTransaction)
  | transactCommit (tx : VersionedTransaction)
  | transactDiscard (tx : VersionedTransaction)
  | processInstructionCase (case : InstructionCase) (unique : Address)
  | simulateInstructionChainWithAccounts (instructions : List Instruction)
      (preAccounts : List (Address × AccountSharedData))

/-- What the caller of an operation gets. -/
inductive Answer
  | done
  | setUp (result : Except HpsvmError Unit)
  | transaction (result : TransactionResult)
  | staged (result : Except HpsvmError TransactionResult)
  | instruction (result : Except HpsvmError DetachedTx)
  | simulation (result : Except FailedTransactionMetadata SimulatedTransactionInfo)

namespace Operation

/-- The operations that take `&self`. -/
def isReadonly : Operation → Bool
  | processInstructionCase _ _ => true
  | simulateInstructionChainWithAccounts _ _ => true
  | _ => false

variable (agave : Agave)

def act : Operation → Svm → Option (Answer × Svm)
  | addBuiltin programId entrypoint, vm => some (.done, vm.addBuiltin programId entrypoint)
  | addProgram programId programBytes, vm =>
    let (result, vm) := vm.addProgram agave programId programBytes
    some (.setUp result, vm)
  | addProgramWithLoader programId programBytes loaderId, vm =>
    let (result, vm) := vm.addProgramWithLoader agave programId programBytes loaderId
    some (.setUp result, vm)
  | setAccount address account, vm =>
    let (result, vm) := vm.setAccount agave address account
    some (.setUp result, vm)
  | setSysvar sysvar data, vm =>
    let (result, vm) := vm.setSysvar agave sysvar data
    some (.setUp result, vm)
  | warpToSlot slot, vm => (vm.warpToSlot agave slot).map fun vm => (.done, vm)
  | setFeatureSet featureSet, vm =>
    (vm.setFeatureSet agave featureSet).map fun (result, vm) => (.setUp result, vm)
  | registerCustomSyscall syscall, vm =>
    let (result, vm) := vm.registerCustomSyscall agave syscall
    some (.setUp result, vm)
  | sendTransaction tx, vm =>
    let (result, vm) := vm.sendTransaction agave tx
    some (.transaction result, vm)
  | transactCommit tx, vm =>
    match vm.transact agave tx with
    | .error (error, vm) => some (.staged (.error error), vm)
    | .ok executed => some (.staged (.ok executed.commit.1), executed.commit.2)
  | transactDiscard tx, vm =>
    match vm.transact agave tx with
    | .error (error, vm) => some (.staged (.error error), vm)
    | .ok executed =>
      (executed.discard agave).map fun (result, vm) => (.staged (.ok result), vm)
  | processInstructionCase case unique, vm =>
    let (result, vm) := vm.processInstructionCase agave case unique
    some (.instruction result, vm)
  | simulateInstructionChainWithAccounts instructions preAccounts, vm =>
    let (result, vm) := vm.simulateInstructionChainWithAccounts agave instructions preAccounts
    some (.simulation result, vm)

/-- The operation as its signature promises it: a call that takes `&self` leaves the VM alone. -/
def alone (op : Operation) (vm : Svm) : Option (Answer × Svm) :=
  if op.isReadonly then (op.act agave vm).map fun (answer, _) => (answer, vm) else op.act agave vm

end Operation

/-- All public operations that change a VM, with their inputs as the model takes them. A sink is
what it answers to a change after those it was given before. -/
inductive PublicOperation
  | operation (op : Operation)
  | transactCommitWith (sink : List AccountChangeRecord → AccountChangeRecord → Bool)
      (tx : VersionedTransaction)
  | processInstructionChainWithAccounts (instructions : List Instruction)
      (preAccounts : List (Address × AccountSharedData))
  | airdrop (tx : VersionedTransaction)
  | sendTransactionBatch (schedule : Nat → Schedule) (transactions : List VersionedTransaction)
  | expireBlockhash (blockhash : Hash) (recentBlockhashes : List UInt8)
  | setLamports (lamports : Nat)
  | prewarmPrograms (programIds : List Address)
  | setTransactionHistory (capacity : Nat)
  | setAccountSource (source : AccountSource)
  | setPrecompileProvider (precompiles : List Precompile)
  | setComputeBudget (computeBudget : ComputeBudget)
  | setSigverify (sigverify : Bool)
  | setBlockhashCheck (check : Bool)
  | setComputeDiagnostics (enabled : Bool)
  | setLogBytesLimit (limit : Option Nat)

namespace PublicOperation

variable (agave : Agave)

/-- The VM an operation leaves, whatever it answers; `none` is a panic. -/
def step : PublicOperation → Svm → Option Svm
  | operation op, vm => (op.act agave vm).map Prod.snd
  | transactCommitWith sink tx, vm =>
    match vm.transact agave tx with
    | .error (_, vm) => some vm
    | .ok executed =>
      let answer (seen : List AccountChangeRecord) (change : AccountChangeRecord) :
          Except Unit Unit × List AccountChangeRecord :=
        (if sink seen change then .ok () else .error (), seen ++ [change])
      (executed.commitWith agave answer []).map fun (_, vm, _) => vm
  | processInstructionChainWithAccounts instructions preAccounts, vm =>
    some (vm.processInstructionChainWithAccounts agave instructions preAccounts).2
  | airdrop tx, vm => some (vm.airdrop agave tx).2
  | sendTransactionBatch schedule transactions, vm =>
    (vm.sendTransactionBatch agave schedule transactions).map Prod.snd
  | expireBlockhash blockhash recentBlockhashes, vm =>
    vm.expireBlockhash agave blockhash recentBlockhashes
  | setLamports lamports, vm => some (vm.setLamports lamports)
  | prewarmPrograms programIds, vm =>
    some (vm.withAccounts (vm.accounts.prewarmPrograms agave programIds).2)
  | setTransactionHistory capacity, vm => some (vm.setTransactionHistory capacity)
  | setAccountSource source, vm => some (vm.setAccountSource source)
  | setPrecompileProvider precompiles, vm => vm.setPrecompileProvider agave precompiles
  | setComputeBudget computeBudget, vm =>
    some { vm with version := { vm.version with computeBudget := some computeBudget } }
  | setSigverify sigverify, vm => some (vm.setSigverify sigverify)
  | setBlockhashCheck check, vm =>
    some { vm with version := { vm.version with blockhashCheck := check } }
  | setComputeDiagnostics enabled, vm =>
    some { vm with version := { vm.version with computeDiagnostics := enabled } }
  | setLogBytesLimit limit, vm =>
    some { vm with version := { vm.version with logBytesLimit := limit } }

end PublicOperation

end Hpsvm
