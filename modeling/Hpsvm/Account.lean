import Hpsvm.Address

/-! Accounts, the external source behind the overlay, and the errors of the account layer. -/

namespace Hpsvm

/-- `AccountSharedData`. Lamports are `u64` values; the VM itself only subtracts with a check. -/
structure AccountSharedData where
  lamports : Nat
  data : List UInt8
  owner : Address
  executable : Bool
  rentEpoch : Nat
deriving DecidableEq, Repr

namespace AccountSharedData

/-- `AccountSharedData::default()`, the account a missing key is loaded as. -/
def default : AccountSharedData := ⟨0, [], Ids.systemProgram, false, 0⟩

/-- What the overlay answers for an account written to it: nothing once it has no lamports. -/
def visible (account : AccountSharedData) : Option AccountSharedData :=
  if account.lamports = 0 then none else some account

theorem visible_eq_some {account found : AccountSharedData}
    (there : account.visible = some found) : account.lamports ≠ 0 ∧ found = account := by
  unfold visible at there
  split at there
  · cases there
  next funded => exact ⟨funded, (Option.some.inj there).symm⟩

end AccountSharedData

inductive AccountSourceErrorKind
  | unavailable
  | invalidResponse
  | other
deriving DecidableEq, Repr

structure AccountSourceError where
  kind : AccountSourceErrorKind
  message : String
deriving DecidableEq, Repr

namespace AccountSourceError

/-- `AccountSourceError::new`. -/
def new (message : String) : AccountSourceError := ⟨.unavailable, message⟩

def kindName : AccountSourceErrorKind → String
  | .unavailable => "Unavailable"
  | .invalidResponse => "InvalidResponse"
  | .other => "Other"

/-- The `Display` text of the error. -/
def toText (error : AccountSourceError) : String := kindName error.kind ++ ": " ++ error.message

end AccountSourceError

/-- `trait AccountSource`: an implementation may answer a batch differently from the keys of
the batch one by one, so both queries are data. -/
structure AccountSource where
  getAccount : Address → Except AccountSourceError (Option AccountSharedData)
  getAccounts : List Address → Except AccountSourceError (List (Option AccountSharedData))

namespace AccountSource

/-- A source with the trait's default batch query, which asks key by key. -/
def ofGetAccount (getAccount : Address → Except AccountSourceError (Option AccountSharedData)) :
    AccountSource where
  getAccount := getAccount
  getAccounts := fun pubkeys => pubkeys.mapM getAccount

/-- `EmptyAccountSource`. -/
def empty : AccountSource := ofGetAccount fun _ => .ok none

end AccountSource

inductive InstructionError
  | invalidAccountData
  | incorrectProgramId
  | unsupportedProgramId
  | insufficientFunds
  | arithmeticOverflow
  | missingAccount
  | accountBorrowFailed
  | computationalBudgetExceeded
  | custom (code : Nat)
  | other (code : Nat)
deriving DecidableEq, Repr

/-- `InvalidSysvarDataError`: one variant for each managed sysvar. -/
abbrev InvalidSysvarDataError := Sysvar

/-- The errors a `DbError` wraps. -/
inductive AnyError
  | accountSource (error : AccountSourceError)
  | prewarmProgram (programId : Address) (source : InstructionError)
  | instruction (error : InstructionError)
deriving DecidableEq, Repr

structure DbError where
  error : AnyError
  fatal : Bool
deriving DecidableEq, Repr

namespace DbError

def nonFatal (error : AnyError) : DbError := ⟨error, false⟩

/-- `From<AccountSourceError>`: only an unavailable source is fatal. -/
def ofAccountSource (error : AccountSourceError) : DbError :=
  ⟨.accountSource error, error.kind == .unavailable⟩

end DbError

inductive ExecutionError
  | database (error : DbError)
  | accountSource (pubkey : Address) (source : AccountSourceError)
deriving DecidableEq, Repr

/-- `HPSVMError`, with the variants the modelled operations return. -/
inductive HpsvmError
  | invalidSysvarData (error : InvalidSysvarDataError)
  | instruction (error : InstructionError)
  | runtimeEnvironment (version reason : String)
  | customSyscallRegistration (name runtime reason : String)
  | invalidLoader (programId loaderId : Address)
  | missingRuntimeComponent (component : String)
  | accountSource (pubkey : Address) (source : AccountSourceError)
  | programLoad (reason : String)
  | database (error : DbError)
  | execution (error : ExecutionError)
deriving DecidableEq, Repr

namespace HpsvmError

/-- `From<ExecutionError>`. -/
def ofExecution : ExecutionError → HpsvmError
  | .accountSource pubkey source => .accountSource pubkey source
  | other => .execution other

end HpsvmError

end Hpsvm
