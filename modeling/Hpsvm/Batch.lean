import Hpsvm.Foundation.GreedyStages
import Hpsvm.Transact

/-!
# Transaction batches

The planner and the staged execution of `batch.rs`. The workers of a stage run on snapshots and may
finish in any order; a schedule says in which, and `none` is a panic.
-/

namespace Hpsvm

open Foundation (GreedyStages.Locking GreedyStages.Stage GreedyStages.bestFit GreedyStages.place)

structure TransactionBatchStage where
  transactionIndexes : List Nat
deriving DecidableEq, Repr

structure TransactionBatchPlan where
  stages : List TransactionBatchStage
deriving DecidableEq, Repr

structure TransactionBatchExecutionResult where
  plan : TransactionBatchPlan
  results : List TransactionResult
deriving DecidableEq

inductive TransactionBatchError
  | sanitize (index : Nat) (source : TransactionError)
  | accountSource (index : Nat) (pubkey : Address) (source : AccountSourceError)
deriving DecidableEq, Repr

inductive BatchSanitizeError
  | transaction (source : TransactionError)
  | accountSource (pubkey : Address) (source : AccountSourceError)
deriving DecidableEq, Repr

def BatchSanitizeError.intoBatchError (index : Nat) : BatchSanitizeError → TransactionBatchError
  | .transaction source => .sanitize index source
  | .accountSource pubkey source => .accountSource index pubkey source

/-! ### Lock sets -/

structure TransactionLockSet where
  readonly : Finset Address
  writable : Finset Address
deriving DecidableEq

namespace TransactionLockSet

/-- The keys of the message by their access, and the lookup tables as read. -/
def fromTransaction (message : SanitizedMessage) (lookups : List MessageAddressTableLookup) :
    TransactionLockSet :=
  let keysWith (writable : Bool) : Finset Address :=
    ((message.accountKeys.zipIdx.filter fun (_, index) =>
      message.isWritable index == writable).map Prod.fst).toFinset
  { readonly := keysWith false ∪ (lookups.map fun lookup => lookup.accountKey).toFinset
    writable := keysWith true }

/-- One of the two writes a key that the other locks. -/
def conflictsWith (self other : TransactionLockSet) : Bool :=
  decide (self.writable ∩ (other.writable ∪ other.readonly) ≠ ∅) ||
    decide (self.readonly ∩ other.writable ≠ ∅)

def len (self : TransactionLockSet) : Nat := self.writable.card + self.readonly.card

def extend (self other : TransactionLockSet) : TransactionLockSet :=
  ⟨self.readonly ∪ other.readonly, self.writable ∪ other.writable⟩

theorem conflictsWith_extend (first second other : TransactionLockSet) :
    (first.extend second).conflictsWith other =
      (first.conflictsWith other || second.conflictsWith other) := by
  rw [Bool.eq_iff_iff]
  simp only [conflictsWith, extend, Bool.or_eq_true, decide_eq_true_eq, Finset.union_inter_distrib_right,
    ne_eq, Finset.union_eq_empty, not_and_or]
  exact or_or_or_comm

/-- The lock discipline of the planner. -/
def locking : GreedyStages.Locking TransactionLockSet where
  conflicts := conflictsWith
  merge := extend
  weight := len
  conflicts_merge := conflictsWith_extend

theorem locking_conflicts (first second : TransactionLockSet) :
    locking.conflicts first second = first.conflictsWith second := by
  simp only [locking]

end TransactionLockSet

/-! ### Planning -/

abbrev ScheduledTransactionBatchStage := GreedyStages.Stage TransactionLockSet

/-- `best_fit_stage`: the conflict-free stage with the fewest locks. -/
def bestFitStage (stages : List ScheduledTransactionBatchStage) (lockSet : TransactionLockSet) :
    Option Nat :=
  GreedyStages.bestFit TransactionLockSet.locking stages lockSet

namespace Svm

variable (agave : Agave)

def sanitizeTransactionForBatch (vm : Svm) (tx : VersionedTransaction) :
    Except BatchSanitizeError SanitizedTransaction :=
  match vm.sanitize agave tx with
  | .ok sanitized => .ok sanitized
  | .error execution =>
    match execution.fatalError with
    | some (.accountSource pubkey source) => .error (.accountSource pubkey source)
    | _ => match execution.txResult with
      | .error source => .error (.transaction source)
      | .ok () => .error (.transaction .sanitizeFailure)

/-- The loop of `plan_transaction_batch`. -/
def scheduleFrom (vm : Svm) : Nat → List VersionedTransaction →
    List ScheduledTransactionBatchStage →
      Except TransactionBatchError (List ScheduledTransactionBatchStage)
  | _, [], stages => .ok stages
  | index, tx :: rest, stages =>
    match vm.sanitizeTransactionForBatch agave tx with
    | .error source => .error (source.intoBatchError index)
    | .ok sanitized =>
      let lockSet := TransactionLockSet.fromTransaction sanitized.message (lookupsOf tx)
      scheduleFrom vm (index + 1) rest
        (GreedyStages.place TransactionLockSet.locking stages index lockSet)

def planTransactionBatch (vm : Svm) (txs : List VersionedTransaction) :
    Except TransactionBatchError TransactionBatchPlan :=
  match vm.scheduleFrom agave 0 txs [] with
  | .error error => .error error
  | .ok stages => .ok ⟨stages.map fun stage => ⟨stage.members⟩⟩

end Svm

/-! ### Executing a plan -/

/-- `stage_read_set`: the static keys of the stage's transactions, each once. -/
def stageReadSet (stage : TransactionBatchStage) (transactions : List VersionedTransaction) :
    List Address :=
  let keys := stage.transactionIndexes.flatMap fun index =>
    match transactions[index]? with
    | none => []
    | some tx => tx.staticAccountKeys
  -- Keeps the first occurrence of each key.
  keys.foldl (fun union key => if key ∈ union then union else union ++ [key]) []

/-- The order in which the workers of a stage finish. -/
structure Schedule where
  order : List Nat → List Nat
  perm : ∀ indexes, (order indexes).Perm indexes

structure BatchStageResult where
  index : Nat
  result : TransactionResult
  delta : CommitDelta

/-- The account-source error a failed prewarm is reported as. -/
def DbError.toAccountSourceError (agave : Agave) (dbError : DbError) : AccountSourceError :=
  match dbError.error with
  | .accountSource source => source
  | .prewarmProgram programId source => ⟨.other,
      "failed to prewarm program " ++ agave.addressText programId ++ ": " ++
        agave.instructionErrorText source⟩
  | .instruction error => ⟨.other, agave.instructionErrorText error⟩

namespace Svm

variable (agave : Agave)

/-- `worker_vm`: a snapshot of the VM, with a program cache of its own. -/
def workerVm (vm : Svm) : Svm := vm

/-- `execute_transaction_batch_stage`, in the order the workers finish. -/
def executeTransactionBatchStage (vm : Svm) (schedule : Schedule) (stage : TransactionBatchStage)
    (transactions : List VersionedTransaction) : Option (List BatchStageResult) :=
  (schedule.order stage.transactionIndexes).mapM fun index =>
    transactions[index]?.map fun tx =>
      let worker := vm.workerVm
      let (result, delta) :=
        detachedIntoResultAndDelta (worker.transactDetached agave tx) worker.history.isEnabled
      ⟨index, result, delta⟩

/-- The merge of a stage, in the order of the indexes. -/
def mergeStageResults (vm : Svm) (results : List (Option TransactionResult)) :
    List BatchStageResult → Option (List (Option TransactionResult) × Svm)
  | [] => some (results, vm)
  | stageResult :: rest =>
    match applyCommitDelta agave vm.accounts vm.history stageResult.delta with
    | (.error _, _, _) => none
    | (.ok (), accounts, history) =>
      mergeStageResults { vm with accounts := accounts, history := history }
        (results.set stageResult.index (some stageResult.result)) rest

/-- The error of a stage whose prewarm failed, blamed on the head of the stage. -/
def prewarmFailure (vm : Svm) (stage : TransactionBatchStage) (readSet : List Address)
    (dbError : DbError) :
    Option (Except TransactionBatchError (List (Option TransactionResult)) × Svm) :=
  match stage.transactionIndexes, readSet with
  | index :: _, pubkey :: _ =>
    some (.error (.accountSource index pubkey (dbError.toAccountSourceError agave)), vm)
  | _, _ => none

/-- The two prewarms of a stage: the accounts of its read set, then the programs among them. -/
def prewarmStage (vm : Svm) (readSet : List Address) : Except DbError Unit × Svm :=
  match vm.accounts.prewarm readSet with
  | (.error dbError, accounts) => (.error dbError, { vm with accounts := accounts })
  | (.ok (), accounts) =>
    match accounts.prewarmPrograms agave readSet with
    | (.error dbError, accounts) => (.error dbError, { vm with accounts := accounts })
    | (.ok (), accounts) => (.ok (), { vm with accounts := accounts })

/-- A stage of several transactions: the prewarms, the workers, the merge. -/
def runParallelStage (vm : Svm) (schedule : Schedule) (stage : TransactionBatchStage)
    (transactions : List VersionedTransaction) (results : List (Option TransactionResult)) :
    Option (Except TransactionBatchError (List (Option TransactionResult)) × Svm) :=
  let readSet := stageReadSet stage transactions
  match vm.prewarmStage agave readSet with
  | (.error dbError, vm) => vm.prewarmFailure agave stage readSet dbError
  | (.ok (), vm) =>
    (vm.executeTransactionBatchStage agave schedule stage transactions).bind fun finished =>
      (vm.mergeStageResults agave results
        (finished.mergeSort fun first second => decide (first.index ≤ second.index))).map
        fun (results, vm) => (.ok results, vm)

/-- A stage of one transaction runs on the live VM. -/
def runStage (vm : Svm) (schedule : Schedule) (stage : TransactionBatchStage)
    (transactions : List VersionedTransaction) (results : List (Option TransactionResult)) :
    Option (Except TransactionBatchError (List (Option TransactionResult)) × Svm) :=
  match stage.transactionIndexes with
  | [index] =>
    transactions[index]?.map fun tx =>
      let (result, vm) := vm.sendTransaction agave tx
      (.ok (results.set index (some result)), vm)
  | _ => vm.runParallelStage agave schedule stage transactions results

def runStages (vm : Svm) (schedule : Nat → Schedule) (transactions : List VersionedTransaction) :
    Nat → List TransactionBatchStage → List (Option TransactionResult) →
      Option (Except TransactionBatchError (List (Option TransactionResult)) × Svm)
  | _, [], results => some (.ok results, vm)
  | stageIndex, stage :: rest, results =>
    (vm.runStage agave (schedule stageIndex) stage transactions results).bind fun
      | (.error error, vm) => some (.error error, vm)
      | (.ok results, vm) => runStages vm schedule transactions (stageIndex + 1) rest results

def sendTransactionBatch (vm : Svm) (schedule : Nat → Schedule)
    (transactions : List VersionedTransaction) :
    Option (Except TransactionBatchError TransactionBatchExecutionResult × Svm) :=
  match vm.planTransactionBatch agave transactions with
  | .error error => some (.error error, vm)
  | .ok plan =>
    (vm.runStages agave schedule transactions 0 plan.stages
      (transactions.map fun _ => none)).bind fun
      | (.error error, vm) => some (.error error, vm)
      | (.ok results, vm) => (results.mapM id).map fun results => (.ok ⟨plan, results⟩, vm)

end Svm

end Hpsvm
