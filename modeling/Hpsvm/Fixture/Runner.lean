import Hpsvm.Builder
import Hpsvm.Fixture.Codec

/-!
# Running fixtures

The fixture runner of `runner.rs`. It works on clones of its base VM; a clone shares the program
cache, so the VM a run leaves behind has the cache of the clone. `none` is a panic.
-/

namespace Hpsvm

variable (agave : Agave)

/-- `configure_vm`. -/
def configureVm (vm : Svm) (runtime : RuntimeFixtureConfig) : Option Svm :=
  let vm := vm.setSigverify runtime.sigverify
  let vm := vm.setBlockhashCheck runtime.blockhashCheck
  let vm := vm.setLogBytesLimit runtime.logBytesLimit
  let vm := (runtime.computeUnitLimit.map (vm.setComputeUnitLimit agave)).getD vm
  vm.warpToSlot agave runtime.slot

/-- `bind_programs`. The programs bound before a failure stay. -/
def bindPrograms (elfs : AddressMap (List UInt8)) (vm : Svm) :
    List ProgramBinding → Except FixtureError Unit × Svm
  | [] => (.ok (), vm)
  | binding :: rest =>
    match elfs[binding.programId]? with
    | none => (.error (.missingProgramElf binding.programId), vm)
    | some elf =>
      match vm.addProgramWithLoader agave binding.programId elf binding.loaderId with
      | (.error error, vm) => (.error (.hpsvm error), vm)
      | (.ok (), vm) => bindPrograms elfs vm rest

/-- A snapshot as `set_account` takes it. -/
def AccountSnapshot.entry (account : AccountSnapshot) : Address × AccountSharedData :=
  (account.address, account.toAccount)

/-- `InstructionFixture::instruction_case`. -/
def InstructionFixture.instructionCase (fixture : InstructionFixture) : InstructionCase :=
  ⟨fixture.programId, fixture.accounts, fixture.data, fixture.preAccounts.map AccountSnapshot.entry⟩

/-- What `run_transaction_fixture` does to its clone before it executes. -/
def TransactionFixture.setUp (elfs : AddressMap (List UInt8)) (fixture : TransactionFixture)
    (vm : Svm) : Option (Except FixtureError Unit × Svm) :=
  (configureVm agave vm fixture.runtime).map fun vm =>
    match bindPrograms agave elfs vm fixture.programs with
    | (.error error, vm) => (.error error, vm)
    | (.ok (), vm) =>
      match vm.setAccounts agave (fixture.preAccounts.map AccountSnapshot.entry) with
      | (.error error, vm) => (.error (.hpsvm error), vm)
      | (.ok (), vm) => (.ok (), vm)

structure FixtureExecution where
  snapshot : ExecutionSnapshot
  pass : Option Bool

/-- `FixtureRunner`, without the override of the tiering policy. -/
structure FixtureRunner where
  baseVm : Svm
  programElfs : AddressMap (List UInt8)

namespace FixtureRunner

variable (texts : ErrorTexts) (codec : Codec)

def new (vm : Svm) : FixtureRunner := ⟨vm, ∅⟩

def withProgramElf (runner : FixtureRunner) (programId : Address) (elf : List UInt8) :
    FixtureRunner :=
  { runner with programElfs := runner.programElfs.insert programId elf }

def afterClone (runner : FixtureRunner) (working : Svm) : FixtureRunner :=
  { runner with baseVm := runner.baseVm.afterClone working }

def runTransactionFixture (runner : FixtureRunner) (fixture : TransactionFixture) :
    Option (Except FixtureError ExecutionSnapshot × FixtureRunner) :=
  if fixture.runtime.blockhashCheck then
    some (.error (.unsupportedRuntimeConfig "blockhash_check"), runner)
  else
    (fixture.setUp agave runner.programElfs runner.baseVm).map fun
      | (.error error, working) => (.error error, runner.afterClone working)
      | (.ok (), working) =>
        match codec.deserializeTransaction fixture.transactionBytes with
        | .error reason => (.error (.decodeTransaction reason), runner.afterClone working)
        | .ok tx =>
          (.ok (.fromOutcome texts (working.transactDetached agave tx)), runner.afterClone working)

/-- `run_instruction_fixture`, given the address `Address::new_unique` would answer. -/
def runInstructionFixture (runner : FixtureRunner) (fixture : InstructionFixture)
    (unique : Address) : Option (Except FixtureError ExecutionSnapshot × FixtureRunner) :=
  (configureVm agave runner.baseVm fixture.runtime).map fun working =>
    match bindPrograms agave runner.programElfs working fixture.programs with
    | (.error error, working) => (.error error, runner.afterClone working)
    | (.ok (), working) =>
      match working.processInstructionCase agave fixture.instructionCase unique with
      | (.error error, working) => (.error (.hpsvm error), runner.afterClone working)
      | (.ok outcome, working) => (.ok (.fromOutcome texts outcome), runner.afterClone working)

def run (runner : FixtureRunner) (fixture : Fixture) (unique : Address) :
    Option (Except FixtureError FixtureExecution × FixtureRunner) :=
  let ran := match fixture.input with
    | .transaction transaction => runner.runTransactionFixture agave texts codec transaction
    | .instruction instruction => runner.runInstructionFixture agave texts instruction unique
  ran.map fun (result, runner) => (result.map fun snapshot => ⟨snapshot, none⟩, runner)

def runAndValidate (runner : FixtureRunner) (fixture : Fixture) (config : ResultConfig)
    (unique : Address) : Option (Except FixtureError Bool × FixtureRunner) :=
  match runner.run agave texts codec fixture unique with
  | none => none
  | some (.error error, runner) => some (.error error, runner)
  | some (.ok execution, runner) =>
    (execution.snapshot.compareWith agave fixture.expectations.baseline config
      fixture.expectations.compares).map fun pass => (.ok pass, runner)

end FixtureRunner

end Hpsvm
