import Hpsvm.AccountsDb.Load
import Hpsvm.Foundation.FileCalls

/-!
# Register tracing

The callback that writes the register traces of an invocation to files (`register_tracing.rs`), over
a Unix file system. What the files hold is left out, and with it the writes into them: those that can
stop the handler come after the last file is created.
-/

namespace Hpsvm

open Foundation

/-- `try_program_elf_bytes`. -/
def Accounts.tryProgramElfBytes (db : Accounts) (programKey : Address) :
    Except InstructionError (List UInt8) :=
  match db.getAccountRef programKey with
  | none => .error .missingAccount
  | some programAccount =>
    if programAccount.owner = Ids.bpfLoader ∨ programAccount.owner = Ids.bpfLoaderDeprecated then
      .ok programAccount.data
    else if programAccount.owner = Ids.bpfLoaderUpgradeable then
      match UpgradeableLoaderState.deserializeProgram programAccount.data with
      | none => .error .invalidAccountData
      | some programdataAddress =>
        match db.getAccountRef programdataAddress with
        | none => .error .missingAccount
        | some programdataAccount =>
          if UpgradeableLoaderState.sizeOfProgramdataMetadata ≤ programdataAccount.data.length then
            .ok (programdataAccount.data.drop UpgradeableLoaderState.sizeOfProgramdataMetadata)
          else .error .invalidAccountData
    else if programAccount.owner = Ids.loaderV4 then
      if loaderV4ProgramDataOffset ≤ programAccount.data.length then
        .ok (programAccount.data.drop loaderV4ProgramDataOffset)
      else .error .invalidAccountData
    else .error .incorrectProgramId

/-- `DEFAULT_PATH`. -/
def defaultTracePath : String := "target/sbf/trace"

structure DefaultRegisterTracingCallback where
  sbfTraceDir : String
  sbfTraceDisassemble : Bool
deriving DecidableEq, Repr

/-- The callback of an environment. -/
def DefaultRegisterTracingCallback.default (env : String → Option String) :
    DefaultRegisterTracingCallback where
  sbfTraceDir := (env "SBF_TRACE_DIR").getD defaultTracePath
  sbfTraceDisassemble := (env "SBF_TRACE_DISASSEMBLE").isSome

/-- What the handler reads of an invocation: the registers of every instruction, the program, and the
accounts of the VM. -/
structure TracedInvocation where
  registerTrace : List (List UInt64)
  programKey : Except InstructionError Address
  accounts : Accounts

inductive TraceError
  | io (error : IoError)
  | outside (canonical : Location)
  | instruction (error : InstructionError)
deriving DecidableEq, Repr

/-- What a handler runs on: the limit on the links of a path, `compute_hash` of a trace, and the
answer of `current_dir`. -/
structure TraceHost where
  links : Nat
  computeHash : List (List UInt64) → String
  currentDir : Path

namespace DefaultRegisterTracingCallback

variable (callback : DefaultRegisterTracingCallback) (host : TraceHost)
  (invocation : TracedInvocation)

/-- The joined path of `SBF_TRACE_DIR`. -/
def traceDir : Path := host.currentDir.join callback.sbfTraceDir

/-- A file of the trace: the start of its hash, with an extension. -/
def traceFile (extension : String) : List Component :=
  .name (String.ofList ((host.computeHash invocation.registerTrace).toList.take 16) ++ "." ++
    extension) :: (callback.traceDir host).components

/-- The files that come first. -/
def firstFiles : List (List Component) :=
  [callback.traceFile host invocation "regs", callback.traceFile host invocation "insns",
    callback.traceFile host invocation "program_id"]

/-- The files that come once the program is known. -/
def programFiles (programId : Address) : List (List Component) :=
  (if callback.sbfTraceDisassemble then [callback.traceFile host invocation "trace"] else []) ++
    match invocation.accounts.tryProgramElfBytes programId with
    | .ok _ => [callback.traceFile host invocation "exec.sha256"]
    | .error _ => []

/-- The part of `handler` that creates. -/
def persist (tree : FileTree) : Except TraceError Unit × FileTree :=
  match tree.createDirAll host.links (callback.traceDir host) with
  | (.error error, tree) => (.error (.io error), tree)
  | (.ok (), tree) =>
    match tree.attempt ((callback.firstFiles host invocation).map (FileTree.openFile host.links)) with
    | (.error error, tree) => (.error (.io error), tree)
    | (.ok (), tree) =>
      match invocation.programKey with
      | .error error => (.error (.instruction error), tree)
      | .ok programId =>
        match tree.attempt ((callback.programFiles host invocation programId).map
            (FileTree.openFile host.links)) with
        | (.error error, tree) => (.error (.io error), tree)
        | (.ok (), tree) => (.ok (), tree)

def handler (tree : FileTree) : Except TraceError Unit × FileTree :=
  if invocation.registerTrace.isEmpty then (.ok (), tree)
  -- The standard library passes no path with a NUL on.
  else if callback.sbfTraceDir.toList.contains '\x00' then (.error (.io .invalidInput), tree)
  else
    match tree.canonicalize host.links (callback.traceDir host) with
    | .error _ => callback.persist host invocation tree
    | .ok canonical =>
      if Path.StartsWith canonical host.currentDir then callback.persist host invocation tree
      else (.error (.outside canonical), tree)

/-- The tree after invocations that were traced one after the other. -/
def traceAll (invocations : List TracedInvocation) (tree : FileTree) : FileTree :=
  invocations.foldl (fun tree invocation => (callback.handler host invocation tree).2) tree

end DefaultRegisterTracingCallback

end Hpsvm
