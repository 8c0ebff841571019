import Hpsvm.Execution

/-!
# Staged transactions

The entry points of `vm.rs` and `executed.rs` that run a transaction: the detached execution, the
staging of its accounts by `transact_core`, and what `commit`, `commit_with` and `discard` make of
the staged state.
-/

namespace Hpsvm

variable (agave : Agave)

/-! ### Diagnostics -/

/-- `TokenMint::LEN`. -/
def tokenMintLen : Nat := 82

/-- `TokenAccount::LEN`. -/
def tokenAccountLen : Nat := 165

def mintDecimals? (account : AccountSharedData) : Option Nat :=
  if account.data.length = tokenMintLen then agave.unpackMint account.data else none

/-- The decimals of a mint among the given accounts; the first account with the address and a
mint's data counts. -/
def scannedDecimals? (accounts : List (Address × AccountSharedData)) (mint : Address) :
    Option Nat :=
  accounts.findSome? fun (address, account) =>
    if address = mint then mintDecimals? agave account else none

/-- `token_balances`. A mint the transaction does not list is read from the database. -/
def tokenBalances (db : Accounts) (accounts : List (Address × AccountSharedData)) :
    List TokenBalance :=
  accounts.zipIdx.filterMap fun ((address, account), index) =>
    if account.data.length = tokenAccountLen then
      (agave.unpackTokenAccount account.data).map fun token =>
        { accountIndex := index
          address := address
          mint := token.mint
          owner := token.owner
          amount := token.amount
          decimals := match scannedDecimals? agave accounts token.mint with
            | some decimals => some decimals
            | none => (db.getAccount token.mint).bind (mintDecimals? agave) }
    else none

namespace Svm

/-- The accounts before the transaction that the diagnostics compare with. -/
def preAccounts (vm : Svm) (postAccounts : List (Address × AccountSharedData)) :
    List (Address × AccountSharedData) :=
  postAccounts.map fun (address, _) => (address, (vm.accounts.getAccount address).getD .default)

def executionDiagnostics (vm : Svm) (postAccounts : List (Address × AccountSharedData))
    (executionTrace : List ExecutedInstruction) (failures : List AccountSourceFailure) :
    ExecutionDiagnostics :=
  let preAccounts := vm.preAccounts postAccounts
  { preBalances := preAccounts.map fun (_, pre) => pre.lamports
    postBalances := postAccounts.map fun (_, post) => post.lamports
    accountDiffs := (preAccounts.zip postAccounts).filterMap fun ((address, pre), (_, post)) =>
      if pre = post then none else some ⟨address, pre.visible, post.visible⟩
    accountSourceFailures := failures
    preTokenBalances := tokenBalances agave vm.accounts preAccounts
    postTokenBalances := tokenBalances agave vm.accounts postAccounts
    executionTrace := executionTrace }

/-- `execution_into_detached`. -/
def executionIntoDetached (vm : Svm) (execution : ExecutionResult) (logs : List String) :
    DetachedTx where
  info :=
    { signature := execution.signature
      logs := logs
      innerInstructions := execution.innerInstructions
      computeUnitsConsumed := execution.computeUnitsConsumed
      returnData := execution.returnData
      fee := execution.fee
      diagnostics :=
        if vm.version.computeDiagnostics then
          vm.executionDiagnostics agave execution.postAccounts execution.executionTrace
            execution.accountSourceFailures
        else
          { executionTrace := execution.executionTrace
            accountSourceFailures := execution.accountSourceFailures } }
  postAccounts := execution.postAccounts
  status := execution.txResult
  included := execution.included
  feePayer := execution.feePayer
  fatalError := execution.fatalError

/-! ### Entry points that stage nothing -/

/-- `transact_detached`. The handlers of all three envelopes are the default one, so dispatching
never fails. -/
def transactDetached (vm : Svm) (tx : VersionedTransaction) : DetachedTx :=
  let (execution, logs) := vm.executeReadonly agave tx
  vm.executionIntoDetached agave execution logs

def tryTransact (vm : Svm) (tx : VersionedTransaction) : Except HpsvmError DetachedTx :=
  let detached := vm.transactDetached agave tx
  match detached.fatalError with
  | some error => .error (.ofExecution error)
  | none => .ok detached

def simulateTransaction (vm : Svm) (tx : VersionedTransaction) :
    Except FailedTransactionMetadata SimulatedTransactionInfo :=
  let detached := vm.transactDetached agave tx
  match detached.status with
  | .error err => .error ⟨err, detached.info⟩
  | .ok () => .ok ⟨detached.info, detached.postAccounts⟩

end Svm

/-! ### Staging -/

/-- `AccountChangeRecord`. -/
structure AccountChangeRecord where
  address : Address
  before : Option AccountSharedData
  after : Option AccountSharedData
deriving DecidableEq, Repr

/-- `ExecutedTx`. It borrows the VM exclusively, so the VM it holds is the only one there is. -/
structure ExecutedTx where
  vm : Svm
  checkpoint : Nat
  result : TransactionResult
  historyEntry : Option (Signature × TransactionResult)
  cacheDirty : Bool
  changes : List AccountChangeRecord

structure StagedFailure where
  error : HpsvmError
  result : TransactionResult

/-- `staging_touches_caches`. -/
def stagingTouchesCaches (postAccounts : List (Address × AccountSharedData))
    (overlay : Accounts) : Bool :=
  postAccounts.any fun (address, account) =>
    account.executable || isManagedSysvarAccount address ||
      match overlay.getAccountRef address with
      | some pre => pre.executable
      | none => false

namespace Svm

/-- `transact_core`. A failure comes with the VM it leaves: rolled back to the checkpoint, with the
caches as the interrupted staging left them. -/
def transactCore (vm : Svm) (tx : VersionedTransaction) :
    Except (StagedFailure × Svm) ExecutedTx :=
  let detached := vm.transactDetached agave tx
  match detached.fatalError with
  | some error =>
    .error (⟨.ofExecution error, (detachedIntoResultAndDelta detached false).1⟩, vm)
  | none =>
    let checkpoint := vm.accounts.checkpoint
    let (result, delta) := detachedIntoResultAndDelta detached vm.history.isEnabled
    match vm.accounts.syncAccounts agave delta.postAccounts with
    | (.error error, accounts) =>
      .error (⟨error, result⟩, { vm with accounts := accounts.rollback checkpoint })
    | (.ok (), accounts) =>
      .ok
        { vm := { vm with accounts := accounts }
          checkpoint := checkpoint
          result := result
          historyEntry := delta.historyEntry
          cacheDirty := stagingTouchesCaches detached.postAccounts vm.accounts
          changes := delta.postAccounts.map fun (address, after) =>
            ⟨address, vm.accounts.getAccount address, after.visible⟩ }

end Svm

namespace ExecutedTx

/-- `commit`: the accounts are live already, so only the history is recorded. -/
def commit (staged : ExecutedTx) : TransactionResult × Svm :=
  (staged.result,
    { staged.vm with history := staged.vm.history.record staged.historyEntry })

/-- The rollback that `discard` and a failed `commit_with` share. Its cache rebuild is expected
to succeed: `none` is the panic of that `expect`. -/
def unstage (staged : ExecutedTx) : Option Svm :=
  let accounts := staged.vm.accounts.rollback staged.checkpoint
  if staged.cacheDirty then
    match (accounts.rebuildSysvarCache agave).rebuildProgramCache agave with
    | (.error _, _) => none
    | (.ok (), accounts) => some { staged.vm with accounts := accounts }
  else some { staged.vm with accounts := accounts }

def discard (staged : ExecutedTx) : Option (TransactionResult × Svm) :=
  (staged.unstage agave).map fun vm => (staged.result, vm)

/-- Streams the changes to a sink with state `σ`, up to its first error. -/
def streamChanges {σ ε : Type} (sink : σ → AccountChangeRecord → Except ε Unit × σ) :
    List AccountChangeRecord → σ → Except ε Unit × σ
  | [], state => (.ok (), state)
  | change :: rest, state =>
    match sink state change with
    | (.error error, state) => (.error error, state)
    | (.ok (), state) => streamChanges sink rest state

def commitWith {σ ε : Type} (sink : σ → AccountChangeRecord → Except ε Unit × σ) (state : σ)
    (staged : ExecutedTx) : Option (Except ε TransactionResult × Svm × σ) :=
  match streamChanges sink staged.changes state with
  | (.error error, state) => (staged.unstage agave).map fun vm => (.error error, vm, state)
  | (.ok (), state) => some (.ok staged.commit.1, staged.commit.2, state)

end ExecutedTx

namespace Accounts

/-- The changes of `commit_source`: one for each entry of the journal, oldest first, with the account
before that entry and the account of now. -/
def journalChanges (db : Accounts) : List AccountChangeRecord :=
  db.journal.reverse.map fun entry =>
    ⟨entry.address, entry.previous, db.getAccountRef entry.address⟩

def commitSource {σ ε : Type} (sink : σ → AccountChangeRecord → Except ε Unit × σ)
    (db : Accounts) (state : σ) : Except ε Unit × σ :=
  ExecutedTx.streamChanges sink db.journalChanges state

end Accounts

namespace Svm

def transact (vm : Svm) (tx : VersionedTransaction) : Except (HpsvmError × Svm) ExecutedTx :=
  match vm.transactCore agave tx with
  | .ok staged => .ok staged
  | .error (failure, vm) => .error (failure.error, vm)

def sendTransaction (vm : Svm) (tx : VersionedTransaction) : TransactionResult × Svm :=
  match vm.transactCore agave tx with
  | .ok staged => staged.commit
  | .error (failure, vm) => (failure.result, vm)

end Svm

end Hpsvm
