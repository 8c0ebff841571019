import Hpsvm.Runtime

/-!
# The layered errors

The error types of `error.rs` with all their variants, the `From` conversions between them and the
fatal classification of each layer. The errors that the modelled operations return
(`Hpsvm.HpsvmError` and its payloads) are a part of them.
-/

namespace Hpsvm.Layers

inductive TxTag
  | legacy
  | v0
  | v1
  | custom (tag : UInt8)
deriving DecidableEq, Repr

inductive TxValidationError
  | invalid (error : TransactionError)
deriving DecidableEq, Repr

inductive HaltReason
  | alreadyProcessed
  | transaction (error : TransactionError)
deriving DecidableEq, Repr

mutual

/-- `AnyError`: the concrete error that is erased. -/
inductive AnyError
  | accountSource (error : AccountSourceError)
  | io (reason : String)
  | sysvarData (error : InvalidSysvarDataError)
  | instruction (error : InstructionError)
  | prewarmProgram (programId : Address) (source : InstructionError)
  | database (error : DbError)
  | hpsvm (error : HpsvmError)
  | other (text : String)

inductive DbError
  | mk (error : AnyError) (fatal : Bool)

inductive LoadError
  | account (error : DbError)
  | program (error : DbError)
  | sysvar (error : DbError)

inductive ExecutionError
  | database (error : DbError)
  | accountSource (pubkey : Address) (source : AccountSourceError)
  | fatal (error : AnyError)
  | halt (reason : HaltReason)

inductive TxError
  | validation (error : TxValidationError)
  | execution (error : ExecutionError)
  | database (error : DbError)
  | unknownTag (tag : TxTag)

inductive HostError
  | halt (reason : HaltReason)
  | execution (error : ExecutionError)

inductive HandlerError
  | mk (error : AnyError)

/-- `HPSVMError`. -/
inductive HpsvmError
  | invalidSysvarData (error : InvalidSysvarDataError)
  | sysvarSerialization (sysvar reason : String)
  | instruction (error : InstructionError)
  | invalidPath (reason : String)
  | runtimeEnvironment (version reason : String)
  | customSyscallRegistration (name runtime reason : String)
  | invalidLoader (programId loaderId : Address)
  | missingRuntimeComponent (component : String)
  | accountSource (pubkey : Address) (source : AccountSourceError)
  | programLoad (reason : String)
  | unknownTransactionTag (tag : TxTag)
  | database (error : DbError)
  | load (error : LoadError)
  | transaction (error : TxError)
  | execution (error : ExecutionError)
  | host (error : HostError)
  | handler (error : HandlerError)

end

/-! ### Fatal errors -/

def DbError.isFatal : DbError → Bool
  | .mk _ fatal => fatal

def LoadError.dbError : LoadError → DbError
  | .account error => error
  | .program error => error
  | .sysvar error => error

def LoadError.isFatal (error : LoadError) : Bool := error.dbError.isFatal

def ExecutionError.isFatal : ExecutionError → Bool
  | .database error => error.isFatal
  | .accountSource _ source => source.kind == .unavailable
  | .fatal _ => true
  | .halt _ => true

def TxError.isFatal : TxError → Bool
  | .validation _ => false
  | .execution error => error.isFatal
  | .database error => error.isFatal
  | .unknownTag _ => false

def HostError.isFatal : HostError → Bool
  | .halt _ => true
  | .execution error => error.isFatal

/-! ### Conversions -/

/-- `From<ExecutionError> for HPSVMError`. -/
def HpsvmError.ofExecution : ExecutionError → HpsvmError
  | .accountSource pubkey source => .accountSource pubkey source
  | other => .execution other

/-- `From<TxError> for HPSVMError`. -/
def HpsvmError.ofTx : TxError → HpsvmError
  | .unknownTag tag => .unknownTransactionTag tag
  | other => .transaction other

/-- `From<HPSVMError> for ExecutionError`. -/
def ExecutionError.ofHpsvm : HpsvmError → ExecutionError
  | .execution error => error
  | .database error => .database error
  | .accountSource pubkey source => .accountSource pubkey source
  | other => .fatal (.hpsvm other)

/-- The error types that conversions lead to from a layer. -/
inductive Kind
  | db
  | load
  | txValidation
  | execution
  | tx
  | host
  | hpsvm
  | any
  | handler
  | boxed
deriving DecidableEq, Repr

/-- An error of one of the types. -/
inductive Error
  | db (error : DbError)
  | load (error : LoadError)
  | txValidation (error : TxValidationError)
  | execution (error : ExecutionError)
  | tx (error : TxError)
  | host (error : HostError)
  | hpsvm (error : HpsvmError)
  | any (error : AnyError)
  | handler (error : HandlerError)
  -- `Box<dyn std::error::Error>`.
  | boxed (error : Error)

namespace Error

def kind : Error → Kind
  | .db _ => .db
  | .load _ => .load
  | .txValidation _ => .txValidation
  | .execution _ => .execution
  | .tx _ => .tx
  | .host _ => .host
  | .hpsvm _ => .hpsvm
  | .any _ => .any
  | .handler _ => .handler
  | .boxed _ => .boxed

/-- The classification of a layer; the other types have none. A validation error has no method for it
and is never fatal. -/
def isFatal : Error → Option Bool
  | .db error => some error.isFatal
  | .load error => some error.isFatal
  | .txValidation _ => some false
  | .execution error => some error.isFatal
  | .tx error => some error.isFatal
  | .host error => some error.isFatal
  | .hpsvm _ => none
  | .any _ => none
  | .handler _ => none
  | .boxed _ => none

variable (display : Error → String)

/-- The conversion by `From` into another type, if there is one. -/
def into (target : Kind) (error : Error) : Option Error :=
  -- `impl<T> From<T> for T`.
  if error.kind = target then some error
  else match target, error with
    | .hpsvm, .db error => some (.hpsvm (.database error))
    | .hpsvm, .load error => some (.hpsvm (.load error))
    | .hpsvm, .execution error => some (.hpsvm (.ofExecution error))
    | .hpsvm, .tx error => some (.hpsvm (.ofTx error))
    | .hpsvm, .host error => some (.hpsvm (.host error))
    | .hpsvm, .handler error => some (.hpsvm (.handler error))
    | .hpsvm, .boxed error => some (.hpsvm (.programLoad (display error)))
    | .any, .hpsvm error => some (.any (.hpsvm error))
    | .any, .db error => some (.any (.database error))
    | .execution, .db error => some (.execution (.database error))
    | .execution, .any error => some (.execution (.fatal error))
    | .execution, .hpsvm error => some (.execution (.ofHpsvm error))
    | .tx, .txValidation error => some (.tx (.validation error))
    | .tx, .execution error => some (.tx (.execution error))
    | .tx, .db error => some (.tx (.database error))
    | .host, .execution error => some (.host (.execution error))
    | .handler, .hpsvm error => some (.handler (.mk (.hpsvm error)))
    | .handler, .any error => some (.handler (.mk error))
    -- `impl<E: Error> From<E> for Box<dyn Error>`.
    | .boxed, error => some (.boxed error)
    | _, _ => none

/-- A chain of conversions, by the types it leads through. -/
def follow (error : Error) : List Kind → Option Error
  | [] => some error
  | target :: path => (error.into display target).bind fun next => next.follow path

end Error

/-! ### The errors of the modelled operations -/

def AnyError.ofModel : Hpsvm.AnyError → AnyError
  | .accountSource error => .accountSource error
  | .prewarmProgram programId source => .prewarmProgram programId source
  | .instruction error => .instruction error

def DbError.ofModel (error : Hpsvm.DbError) : DbError := .mk (.ofModel error.error) error.fatal

def ExecutionError.ofModel : Hpsvm.ExecutionError → ExecutionError
  | .database error => .database (.ofModel error)
  | .accountSource pubkey source => .accountSource pubkey source

def HpsvmError.ofModel : Hpsvm.HpsvmError → HpsvmError
  | .invalidSysvarData error => .invalidSysvarData error
  | .instruction error => .instruction error
  | .runtimeEnvironment version reason => .runtimeEnvironment version reason
  | .customSyscallRegistration name runtime reason => .customSyscallRegistration name runtime reason
  | .invalidLoader programId loaderId => .invalidLoader programId loaderId
  | .missingRuntimeComponent component => .missingRuntimeComponent component
  | .accountSource pubkey source => .accountSource pubkey source
  | .programLoad reason => .programLoad reason
  | .database error => .database (.ofModel error)
  | .execution error => .execution (.ofModel error)

/-- The one conversion that the operations use is the one of the layers. -/
theorem HpsvmError.ofModel_ofExecution (error : Hpsvm.ExecutionError) :
    HpsvmError.ofModel (Hpsvm.HpsvmError.ofExecution error) =
      HpsvmError.ofExecution (.ofModel error) := by
  cases error <;> rfl

end Hpsvm.Layers
