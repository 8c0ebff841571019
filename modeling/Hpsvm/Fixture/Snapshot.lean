import Hpsvm.Outcome

/-!
# Execution snapshots

What a fixture records of an execution (`snapshot.rs`), and how two such records are compared
(`compare.rs`).
-/

namespace Hpsvm

/-! ### Snapshots -/

/-- `ExecutionFailure`. Result codes are `i32` values, custom errors `u32` values. -/
inductive ExecutionFailure
  | programResult (result : Int)
  | customError (code : Nat)
  | programResultWithCustomError (result : Int) (customError : Nat)
  | other (kind message : String)
deriving DecidableEq, Repr

inductive ExecutionStatus
  | success
  | failure (failure : ExecutionFailure)
deriving DecidableEq, Repr

structure AccountSnapshot where
  address : Address
  lamports : Nat
  owner : Address
  executable : Bool
  rentEpoch : Nat
  data : List UInt8
deriving DecidableEq, Repr

structure ReturnDataSnapshot where
  programId : Address
  data : List UInt8
deriving DecidableEq, Repr

structure InnerInstructionSnapshot where
  stackHeight : Nat
  programIdIndex : Nat
  accounts : List Nat
  data : List UInt8
  outerInstructionIndex : Nat
deriving DecidableEq, Repr

structure ExecutionSnapshot where
  status : ExecutionStatus
  included : Bool
  computeUnitsConsumed : Nat
  fee : Nat
  logs : List String
  returnData : Option ReturnDataSnapshot
  innerInstructions : List InnerInstructionSnapshot
  postAccounts : List AccountSnapshot
deriving DecidableEq, Repr

/-- The `Debug` and the `Display` text of a `TransactionError`. -/
structure ErrorTexts where
  debug : TransactionError → String
  display : TransactionError → String

namespace ExecutionStatus

variable (texts : ErrorTexts)

def fromError (error : TransactionError) : ExecutionStatus :=
  .failure (.other (texts.debug error) (texts.display error))

def fromResult : Except TransactionError Unit → ExecutionStatus
  | .ok () => .success
  | .error error => fromError texts error

end ExecutionStatus

namespace AccountSnapshot

def fromReadable (address : Address) (account : AccountSharedData) : AccountSnapshot :=
  ⟨address, account.lamports, account.owner, account.executable, account.rentEpoch, account.data⟩

/-- `From<AccountSnapshot> for Account`. -/
def toAccount (snapshot : AccountSnapshot) : AccountSharedData :=
  ⟨snapshot.lamports, snapshot.data, snapshot.owner, snapshot.executable, snapshot.rentEpoch⟩

@[simp] theorem fromReadable_toAccount (snapshot : AccountSnapshot) :
    fromReadable snapshot.address snapshot.toAccount = snapshot := rfl

end AccountSnapshot

/-- `ReturnDataSnapshot::from_meta`: empty return data is no return data. -/
def ReturnDataSnapshot.fromMeta (returnData : TransactionReturnData) : Option ReturnDataSnapshot :=
  if returnData.data.isEmpty then none else some ⟨returnData.programId, returnData.data⟩

def flattenInnerInstructions (groups : List (List InnerInstruction)) :
    List InnerInstructionSnapshot :=
  groups.zipIdx.flatMap fun (group, outerInstructionIndex) =>
    group.map fun inner =>
      ⟨inner.stackHeight, inner.instruction.programIdIndex, inner.instruction.accounts,
        inner.instruction.data, outerInstructionIndex⟩

namespace ExecutionSnapshot

variable (texts : ErrorTexts)

def fromOutcome (outcome : DetachedTx) : ExecutionSnapshot where
  status := .fromResult texts outcome.status
  included := outcome.included
  computeUnitsConsumed := outcome.info.computeUnitsConsumed
  fee := outcome.info.fee
  logs := outcome.info.logs
  returnData := ReturnDataSnapshot.fromMeta outcome.info.returnData
  innerInstructions := flattenInnerInstructions outcome.info.innerInstructions
  postAccounts := outcome.postAccounts.map fun (address, account) =>
    .fromReadable address account

end ExecutionSnapshot

/-! ### Comparisons -/

inductive AccountCompareScope
  | all
  | only (addresses : List Address)
  | allExcept (addresses : List Address)
deriving DecidableEq, Repr

inductive Compare
  | status
  | included
  | computeUnits
  | fee
  | returnData
  | logs
  | innerInstructionCount
  | accounts (scope : AccountCompareScope)
deriving DecidableEq, Repr

inductive MismatchKind
  | comparison
  | check
deriving DecidableEq, Repr

structure Mismatch where
  kind : MismatchKind
  predicate : String
  message : String
deriving DecidableEq, Repr

structure ResultConfig where
  panic : Bool := false
  verbose : Bool := false
deriving DecidableEq, Repr

def MismatchKind.label : MismatchKind → String
  | .comparison => "comparison"
  | .check => "check"

/-- `report_mismatch`; `none` is the panic of the fail-fast mode. The line that `verbose` prints is
left out. -/
def reportMismatch (config : ResultConfig) (kind : MismatchKind) (predicate : String) :
    Option Mismatch :=
  if config.panic then none else some ⟨kind, predicate, kind.label ++ " failed: " ++ predicate⟩

namespace AccountCompareScope

/-- `should_compare`. -/
def shouldCompare (scope : AccountCompareScope) (address : Address) : Bool :=
  match scope with
  | .all => true
  | .only addresses => addresses.contains address
  | .allExcept addresses => !addresses.contains address

variable (agave : Agave)

def addressesDebug (addresses : List Address) : String :=
  "[" ++ ", ".intercalate (addresses.map agave.addressText) ++ "]"

def debug : AccountCompareScope → String
  | .all => "All"
  | .only addresses => "Only(" ++ addressesDebug agave addresses ++ ")"
  | .allExcept addresses => "AllExcept(" ++ addressesDebug agave addresses ++ ")"

end AccountCompareScope

namespace Compare

/-- The derived `Debug` text. -/
def debug (agave : Agave) : Compare → String
  | .status => "Status"
  | .included => "Included"
  | .computeUnits => "ComputeUnits"
  | .fee => "Fee"
  | .returnData => "ReturnData"
  | .logs => "Logs"
  | .innerInstructionCount => "InnerInstructionCount"
  | .accounts scope => "Accounts(" ++ scope.debug agave ++ ")"

def everything : List Compare :=
  [status, included, computeUnits, fee, returnData, logs, innerInstructionCount, accounts .all]

def everythingButComputeUnits : List Compare :=
  [status, included, fee, returnData, logs, innerInstructionCount, accounts .all]

end Compare

/-- The account that a map collected from the accounts holds for the address: the last one. -/
def lastAt (accounts : List AccountSnapshot) (address : Address) : Option AccountSnapshot :=
  accounts.reverse.find? fun account => account.address == address

theorem lastAt_eq_some {accounts : List AccountSnapshot} {address : Address}
    {account : AccountSnapshot} (found : lastAt accounts address = some account) :
    account ∈ accounts ∧ account.address = address := by
  constructor
  · exact List.mem_reverse.1 (List.mem_of_find?_eq_some found)
  · simpa using List.find?_some found

theorem exists_lastAt {accounts : List AccountSnapshot} {account : AccountSnapshot}
    (member : account ∈ accounts) : ∃ last, lastAt accounts account.address = some last := by
  apply Option.isSome_iff_exists.1
  rw [lastAt, List.find?_isSome]
  exact ⟨account, List.mem_reverse.2 member, by simp⟩

def compareAccounts (left right : ExecutionSnapshot) (scope : AccountCompareScope) : Bool :=
  (left.postAccounts.all fun account =>
    !scope.shouldCompare account.address || lastAt right.postAccounts account.address == some account) &&
  !(right.postAccounts.any fun account =>
    scope.shouldCompare account.address &&
      !(left.postAccounts.map AccountSnapshot.address).contains account.address)

namespace ExecutionSnapshot

def passes (self other : ExecutionSnapshot) : Compare → Bool
  | .status => self.status == other.status
  | .included => self.included == other.included
  | .computeUnits => self.computeUnitsConsumed == other.computeUnitsConsumed
  | .fee => self.fee == other.fee
  | .returnData => self.returnData == other.returnData
  | .logs => self.logs == other.logs
  | .innerInstructionCount => self.innerInstructions.length == other.innerInstructions.length
  | .accounts scope => compareAccounts self other scope

/-- `try_compare_with`; `none` is a panic. -/
def tryCompareWith (agave : Agave) (self other : ExecutionSnapshot) (config : ResultConfig) :
    List Compare → Option (Except Mismatch Unit)
  | [] => some (.ok ())
  | compare :: rest =>
    if self.passes other compare then tryCompareWith agave self other config rest
    else (reportMismatch config .comparison (compare.debug agave)).map .error

/-- `compare_with`. -/
def compareWith (agave : Agave) (self other : ExecutionSnapshot) (config : ResultConfig)
    (compares : List Compare) : Option Bool :=
  (self.tryCompareWith agave other config compares).map Except.isOk

/-- A comparison succeeds if every predicate holds, whatever the configuration. -/
theorem tryCompareWith_eq_ok_iff (agave : Agave) (self other : ExecutionSnapshot)
    (config : ResultConfig) (compares : List Compare) :
    self.tryCompareWith agave other config compares = some (.ok ()) ↔
      ∀ compare ∈ compares, self.passes other compare = true := by
  induction compares with
  | nil => simp [tryCompareWith]
  | cons compare rest ih =>
    by_cases pass : self.passes other compare = true
    · simp [tryCompareWith, pass, ih]
    · simp [tryCompareWith, pass]

end ExecutionSnapshot

end Hpsvm
