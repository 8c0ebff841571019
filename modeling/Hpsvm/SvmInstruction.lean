import Hpsvm.Runtime
import Mathlib.Logic.Function.Basic

/-!
# Builtins declared with `#[svm_instruction]`

The owned context of `svm_instruction.rs` and the entrypoint that the macro generates: it copies the
accounts of the running instruction, runs the handler on the copies, and writes back what differs
from the accounts.
-/

namespace Hpsvm

/-- `SvmInstructionAccount`: a copy of one account of the instruction. -/
structure SvmInstructionAccount where
  key : Address
  isSigner : Bool
  isWritable : Bool
  lamports : Nat
  data : List UInt8
  owner : Address
  indexInTransaction : Nat
deriving DecidableEq, Repr

/-- `SvmInstructionCtx`. -/
structure SvmInstructionCtx where
  programId : Address
  accounts : List SvmInstructionAccount
  data : List UInt8
deriving DecidableEq, Repr

variable {keys : List Address} {δ : Type}

/-- What a builtin works on: the invoke context with the flags of its accounts, and what the checked
setters count beside them, such as the growth of the data. -/
structure BuiltinState (keys : List Address) (δ : Type) where
  context : InvokeContext keys
  touched : Fin keys.length → Bool
  borrowed : Fin keys.length → Bool
  counts : δ

/-- The checks of the setters of `BorrowedInstructionAccount`. Each sees the running instruction,
the borrowed account and the counts, and refuses the value or stores it with new counts. -/
structure CheckedSetters (δ : Type) where
  setLamports : InstructionFrame → InstructionAccount → AccountSharedData → δ → Nat →
    Except InstructionError δ
  setDataFromSlice : InstructionFrame → InstructionAccount → AccountSharedData → δ → List UInt8 →
    Except InstructionError δ
  setOwner : InstructionFrame → InstructionAccount → AccountSharedData → δ → Address →
    Except InstructionError δ

/-- Code that works on the state. What it did before a failure stays. -/
abbrev BuiltinProgram (keys : List Address) (δ : Type) (α : Type) :=
  EStateM InstructionError (BuiltinState keys δ) α

namespace BuiltinState

/-- `try_borrow_instruction_account`. The borrow ends before the next one begins. -/
def tryBorrowInstructionAccount (state : BuiltinState keys δ) (account : InstructionAccount) :
    Except InstructionError (Fin keys.length) :=
  if listed : account.indexInTransaction < keys.length then
    if state.borrowed ⟨account.indexInTransaction, listed⟩ then .error .accountBorrowFailed
    else .ok ⟨account.indexInTransaction, listed⟩
  else .error .missingAccount

/-- Stores a change of an account. -/
def store (state : BuiltinState keys δ) (index : Fin keys.length) (account : AccountSharedData)
    (counts : δ) : BuiltinState keys δ :=
  { state with
    context :=
      { state.context with accounts := Function.update state.context.accounts index account }
    touched := Function.update state.touched index true
    counts := counts }

end BuiltinState

namespace CheckedSetters

variable (setters : CheckedSetters δ) (frame : InstructionFrame) (account : InstructionAccount)

/-- A field is written if it differs from the copy, by a checked setter. -/
def writeField {φ : Type} [DecidableEq φ]
    (check : InstructionFrame → InstructionAccount → AccountSharedData → δ → φ →
      Except InstructionError δ)
    (get : AccountSharedData → φ) (set : AccountSharedData → φ → AccountSharedData)
    (index : Fin keys.length) (value : φ) : BuiltinProgram keys δ Unit := fun state =>
  let live := state.context.accounts index
  if get live ≠ value then
    match check frame account live state.counts value with
    | .error error => .error error state
    | .ok counts => .ok () (state.store index (set live value) counts)
  else .ok () state

def writeLamports (index : Fin keys.length) (lamports : Nat) : BuiltinProgram keys δ Unit :=
  writeField frame account setters.setLamports AccountSharedData.lamports
    (fun live lamports => { live with lamports := lamports }) index lamports

def writeData (index : Fin keys.length) (data : List UInt8) : BuiltinProgram keys δ Unit :=
  writeField frame account setters.setDataFromSlice AccountSharedData.data
    (fun live data => { live with data := data }) index data

def writeOwner (index : Fin keys.length) (owner : Address) : BuiltinProgram keys δ Unit :=
  writeField frame account setters.setOwner AccountSharedData.owner
    (fun live owner => { live with owner := owner }) index owner

end CheckedSetters

/-! ### Copies -/

namespace SvmInstructionCtx

/-- The copies of the instruction accounts, in order. -/
def takeAccounts (state : BuiltinState keys δ) :
    List InstructionAccount → Except InstructionError (List SvmInstructionAccount)
  | [] => .ok []
  | account :: rest => do
    let index ← state.tryBorrowInstructionAccount account
    let live := state.context.accounts index
    let taken ← takeAccounts state rest
    pure (⟨keys.get index, account.isSigner, account.isWritable, live.lamports, live.data, live.owner,
      account.indexInTransaction⟩ :: taken)

def fromInvokeContext (frame : InstructionFrame) (state : BuiltinState keys δ) :
    Except InstructionError SvmInstructionCtx := do
  match keys[frame.programAccountIndex]? with
  | none => .error .missingAccount
  | some programId => do
    let accounts ← takeAccounts state frame.accounts
    pure ⟨programId, accounts, frame.data⟩

variable (setters : CheckedSetters δ) (frame : InstructionFrame)

/-- One round of `write_back`. -/
def writeBackAccount (account : InstructionAccount) (copy : SvmInstructionAccount) :
    BuiltinProgram keys δ Unit := fun state =>
  match state.tryBorrowInstructionAccount account with
  | .error error => .error error state
  | .ok index =>
    (do
      setters.writeLamports frame account index copy.lamports
      setters.writeData frame account index copy.data
      setters.writeOwner frame account index copy.owner).run state

/-- The loop of `write_back`, from a position on. -/
def writeBackFrom (ctx : SvmInstructionCtx) :
    Nat → List InstructionAccount → BuiltinProgram keys δ Unit
  | _, [] => pure ()
  | index, account :: rest =>
    match ctx.accounts[index]? with
    | none => throw .missingAccount
    | some copy => do
      writeBackAccount setters frame account copy
      writeBackFrom ctx (index + 1) rest

def writeBack (ctx : SvmInstructionCtx) : BuiltinProgram keys δ Unit :=
  writeBackFrom setters frame ctx 0 frame.accounts

end SvmInstructionCtx

/-! ### The generated entrypoint -/

/-- `consume_checked`. -/
def consumeChecked (amount : Nat) : BuiltinProgram keys δ Unit := fun state =>
  let charged :=
    { state with
      context := { state.context with computeMeter := state.context.computeMeter - amount } }
  if state.context.computeMeter < amount then .error .computationalBudgetExceeded charged
  else .ok () charged

/-- The charge of the declared compute units. -/
def chargeUnits (computeUnits : Nat) : BuiltinProgram keys δ Unit :=
  if computeUnits > 0 then consumeChecked computeUnits else pure ()

/-- The entrypoint of a handler with its declared compute units. -/
def svmInstructionEntrypoint (setters : CheckedSetters δ) (computeUnits : Nat)
    (handler : SvmInstructionCtx → Except InstructionError SvmInstructionCtx)
    (frame : InstructionFrame) : BuiltinProgram keys δ Unit := do
  chargeUnits computeUnits
  let state ← get
  match SvmInstructionCtx.fromInvokeContext frame state with
  | .error error => throw error
  | .ok taken =>
    match handler taken with
    | .error error => throw error
    | .ok ctx => ctx.writeBack setters frame

end Hpsvm
