import Hpsvm.Foundation.LruCache
import Hpsvm.AccountsDb.Write

/-!
# Execution outcomes

The results of `types.rs` and `executed.rs`, the instruction trace of `utils/inner_instructions.rs`
and the bounded history of `history.rs`.
-/

namespace Hpsvm

/-! ### Metadata -/

structure InnerInstruction where
  instruction : CompiledInstruction
  stackHeight : Nat
deriving DecidableEq, Repr

structure ExecutedInstruction where
  stackHeight : Nat
  programId : Address
  accounts : List AccountMeta
  data : List UInt8
deriving DecidableEq, Repr

structure AccountSourceFailure where
  pubkey : Address
  error : String
deriving DecidableEq, Repr

structure AccountDiff where
  address : Address
  pre : Option AccountSharedData
  post : Option AccountSharedData
deriving DecidableEq, Repr

structure TokenBalance where
  accountIndex : Nat
  address : Address
  mint : Address
  owner : Address
  amount : Nat
  decimals : Option Nat
deriving DecidableEq, Repr

structure ExecutionDiagnostics where
  preBalances : List Nat := []
  postBalances : List Nat := []
  accountDiffs : List AccountDiff := []
  accountSourceFailures : List AccountSourceFailure := []
  preTokenBalances : List TokenBalance := []
  postTokenBalances : List TokenBalance := []
  executionTrace : List ExecutedInstruction := []
deriving DecidableEq, Repr

structure TransactionMetadata where
  signature : Signature := 0
  logs : List String := []
  innerInstructions : List (List InnerInstruction) := []
  computeUnitsConsumed : Nat := 0
  returnData : TransactionReturnData := ⟨0, []⟩
  fee : Nat := 0
  diagnostics : ExecutionDiagnostics := {}
deriving DecidableEq, Repr

structure FailedTransactionMetadata where
  err : TransactionError
  info : TransactionMetadata
deriving DecidableEq, Repr

abbrev TransactionResult := Except FailedTransactionMetadata TransactionMetadata

structure SimulatedTransactionInfo where
  info : TransactionMetadata
  postAccounts : List (Address × AccountSharedData)
deriving DecidableEq, Repr

/-- `ExecutionResult`, with the defaults of its `Default` implementation. -/
structure ExecutionResult where
  postAccounts : List (Address × AccountSharedData) := []
  txResult : Except TransactionError Unit := .error .unsupportedVersion
  signature : Signature := 0
  computeUnitsConsumed : Nat := 0
  innerInstructions : List (List InnerInstruction) := []
  returnData : TransactionReturnData := ⟨0, []⟩
  executionTrace : List ExecutedInstruction := []
  included : Bool := false
  fee : Nat := 0
  feePayer : Option Address := none
  accountSourceFailures : List AccountSourceFailure := []
  fatalError : Option ExecutionError := none

/-- `DetachedTx`: the owned outcome of an execution that staged nothing. -/
structure DetachedTx where
  info : TransactionMetadata
  postAccounts : List (Address × AccountSharedData)
  status : Except TransactionError Unit
  included : Bool
  feePayer : Option Address
  fatalError : Option ExecutionError

/-! ### The instruction trace -/

/-- The leading frames without a caller. -/
def numTopLevel (frames : List InstructionFrame) : Nat :=
  (frames.takeWhile fun frame => frame.caller.isNone).length

/-- Follows the callers of a frame up to a top-level frame. A trace is recorded caller first, so
as many rounds as there are frames suffice. -/
def topLevelAncestor (frames : List InstructionFrame) : Nat → Nat → Option Nat
  | 0, index => if index < numTopLevel frames then some index else none
  | rounds + 1, index =>
    if index < numTopLevel frames then some index
    else match frames[index]? with
      | some frame => frame.caller.bind (topLevelAncestor frames rounds)
      | none => none

def InstructionFrame.stackHeight (frame : InstructionFrame) : Nat := (frame.nestingLevel + 1) % 256

def executedInstruction (keys : List Address) (frame : InstructionFrame) : ExecutedInstruction where
  stackHeight := frame.stackHeight
  programId := keys.getD frame.programAccountIndex 0
  accounts := frame.accounts.filterMap fun account =>
    keys[account.indexInTransaction]?.map fun pubkey =>
      ⟨pubkey, account.isSigner, account.isWritable⟩
  data := frame.data

def innerInstruction (frame : InstructionFrame) : InnerInstruction where
  instruction :=
    ⟨frame.programAccountIndex % 256,
      frame.accounts.map fun account => account.indexInTransaction % 256, frame.data⟩
  stackHeight := frame.stackHeight

/-- `extract_instruction_trace_data`: the inner instructions under each top-level instruction, and
the flat trace. -/
def extractInstructionTraceData (keys : List Address) (frames : List InstructionFrame) :
    List (List InnerInstruction) × List ExecutedInstruction :=
  let inner := (List.range (numTopLevel frames)).map fun top =>
    (frames.zipIdx.filter fun (_, index) =>
      decide (numTopLevel frames ≤ index) &&
        topLevelAncestor frames frames.length index == some top).map
      fun (frame, _) => innerInstruction frame
  (inner, frames.map (executedInstruction keys))

/-! ### History -/

/-- `TransactionHistory`: capacity 0 disables it, but the cache has room for an entry even then. -/
structure TransactionHistory where
  entries : Foundation.LruCache Signature TransactionResult
  maxEntries : Nat
  cap_pos : 0 < entries.cap

namespace TransactionHistory

def withCapacity (capacity : Nat) : TransactionHistory :=
  ⟨.empty (max capacity 1), capacity, Nat.lt_of_lt_of_le Nat.one_pos (Nat.le_max_right _ _)⟩

def new : TransactionHistory := withCapacity 32

def setCapacity (history : TransactionHistory) (capacity : Nat) : TransactionHistory :=
  if disabled : capacity = 0 then ⟨history.entries.clear, 0, history.cap_pos⟩
  else ⟨history.entries.resize capacity, capacity, Nat.pos_of_ne_zero disabled⟩

def getTransaction (history : TransactionHistory) (signature : Signature) :
    Option TransactionResult :=
  if history.maxEntries = 0 then none else history.entries.peek signature

def addNewTransaction (history : TransactionHistory) (signature : Signature)
    (result : TransactionResult) : TransactionHistory :=
  if history.maxEntries = 0 then history
  else ⟨history.entries.put signature result, history.maxEntries, history.cap_pos⟩

def checkTransaction (history : TransactionHistory) (signature : Signature) : Bool :=
  if history.maxEntries = 0 then false else (history.entries.peek signature).isSome

def isEnabled (history : TransactionHistory) : Bool := history.maxEntries != 0

end TransactionHistory

/-! ### Deltas -/

/-- `CommitDelta`. -/
structure CommitDelta where
  postAccounts : List (Address × AccountSharedData)
  historyEntry : Option (Signature × TransactionResult)

/-- The result a caller of the committing entry points gets for an outcome. -/
def DetachedTx.result (detached : DetachedTx) : TransactionResult :=
  match detached.status with
  | .ok () => .ok detached.info
  | .error err => .error ⟨err, detached.info⟩

/-- `detached_into_result_and_delta`. -/
def detachedIntoResultAndDelta (detached : DetachedTx) (historyEnabled : Bool) :
    TransactionResult × CommitDelta :=
  let delta :=
    if detached.included then
      ⟨detached.postAccounts,
        if historyEnabled then some (detached.info.signature, detached.result) else none⟩
    else ⟨[], none⟩
  (detached.result, delta)

/-- Records the history half of a delta. -/
def TransactionHistory.record (history : TransactionHistory)
    (entry : Option (Signature × TransactionResult)) : TransactionHistory :=
  match entry with
  | some (signature, result) => history.addNewTransaction signature result
  | none => history

/-- `apply_commit_delta`. -/
def applyCommitDelta (agave : Agave) (accounts : Accounts) (history : TransactionHistory)
    (delta : CommitDelta) : Except HpsvmError Unit × Accounts × TransactionHistory :=
  match accounts.syncAccounts agave delta.postAccounts with
  | (.error error, accounts) => (.error error, accounts, history)
  | (.ok (), accounts) => (.ok (), accounts, history.record delta.historyEntry)

end Hpsvm
