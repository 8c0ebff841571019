import Hpsvm.Transact

/-!
# Setting up and reconfiguring a VM

The operations of `vm.rs`, `runtime_env.rs` and `programs/mod.rs` that change a VM between
transactions. A fallible operation answers its result with the VM it leaves; `none` is the panic
of an `expect`.
-/

namespace Hpsvm

/-- `create_loadable_account_for_test`. -/
def createLoadableAccount (name : String) : AccountSharedData :=
  ⟨1, name.toUTF8.toList, Ids.nativeLoader, true, 2 ^ 64 - 1⟩

/-- The account `add_builtin` installs. -/
def builtinAccount : AccountSharedData := ⟨1, [0], Ids.nativeLoader, true, 0⟩

/-- The account `load_precompiles` installs. -/
def precompileAccount : AccountSharedData := ⟨1, [], Ids.nativeLoader, true, 0⟩

def sysvarAccount (data : List UInt8) : AccountSharedData := ⟨1, data, Ids.sysvar, false, 0⟩

namespace Svm

variable (agave : Agave)

/-- The VM with another database. -/
def withAccounts (vm : Svm) (accounts : Accounts) : Svm := { vm with accounts := accounts }

/-! ### Accounts and sysvars -/

def syncBlockEnvSlot (vm : Svm) : Svm :=
  { vm with blockEnv := { vm.blockEnv with slot := vm.accounts.currentSlot agave } }

def setAccount (vm : Svm) (address : Address) (account : AccountSharedData) :
    Except HpsvmError Unit × Svm :=
  match vm.accounts.addAccount agave address account with
  | (.error error, accounts) => (.error error, vm.withAccounts accounts)
  | (.ok (), accounts) => (.ok (), (vm.withAccounts accounts).syncBlockEnvSlot agave)

/-- Writes accounts in turn, up to the first that is refused. -/
def setAccounts (vm : Svm) : List (Address × AccountSharedData) → Except HpsvmError Unit × Svm
  | [] => (.ok (), vm)
  | (address, account) :: rest =>
    match vm.setAccount agave address account with
    | (.error error, vm) => (.error error, vm)
    | (.ok (), vm) => setAccounts vm rest

/-- `set_sysvar` of an encoded sysvar. -/
def setSysvar (vm : Svm) (sysvar : Sysvar) (data : List UInt8) : Except HpsvmError Unit × Svm :=
  vm.setAccount agave sysvar.id (sysvarAccount data)

/-- `get_sysvar::<Clock>`, which expects the overlay to hold a clock that decodes. -/
def clock? (vm : Svm) : Option (List UInt8) :=
  match vm.accounts.getAccountRef Sysvar.clock.id with
  | some account =>
    if agave.deserializesSysvar .clock account.data then some account.data else none
  | none => none

def expectOk : Except HpsvmError Unit × Svm → Option Svm
  | (.error _, _) => none
  | (.ok (), vm) => some vm

theorem expectOk_eq_some {outcome : Except HpsvmError Unit × Svm} {vm : Svm}
    (done : expectOk outcome = some vm) : outcome = (.ok (), vm) := by
  unfold expectOk at done
  split at done
  · cases done
  · cases done
    rfl

def warpToSlot (vm : Svm) (slot : Nat) : Option Svm :=
  (vm.clock? agave).bind fun clock =>
    expectOk (vm.setSysvar agave .clock (agave.withClockSlot clock slot))

/-- Warping writes the clock it read, with another slot. -/
theorem warpToSlot_eq_some {vm warped : Svm} {slot : Nat}
    (done : vm.warpToSlot agave slot = some warped) :
    ∃ clock, vm.clock? agave = some clock ∧
      vm.setAccount agave Sysvar.clock.id (sysvarAccount (agave.withClockSlot clock slot)) =
        (.ok (), warped) := by
  obtain ⟨clock, found, set⟩ := Option.bind_eq_some_iff.1 done
  exact ⟨clock, found, expectOk_eq_some set⟩

/-- `expire_blockhash`, given the next hash and the encoding of the `RecentBlockhashes` that holds
it. -/
def expireBlockhash (vm : Svm) (blockhash : Hash) (recentBlockhashes : List UInt8) : Option Svm :=
  let expired := { vm with blockEnv := { vm.blockEnv with latestBlockhash := blockhash } }
  expectOk (expired.setSysvar agave .recentBlockhashes recentBlockhashes)

def setLamports (vm : Svm) (lamports : Nat) : Svm :=
  vm.withAccounts (vm.accounts.addAccountNoChecks vm.airdropPubkey
    { AccountSharedData.default with lamports := lamports })

def setAccountSource (vm : Svm) (source : AccountSource) : Svm :=
  vm.withAccounts { vm.accounts with source := source }

/-- Removes accounts in turn. -/
def removeAccounts (vm : Svm) (addresses : List Address) : Svm :=
  vm.withAccounts (addresses.foldl (fun accounts address => accounts.removeAccount agave address)
    vm.accounts)

/-! ### History -/

def setTransactionHistory (vm : Svm) (capacity : Nat) : Svm :=
  { vm with history := vm.history.setCapacity capacity }

/-! ### Programs -/

def addBuiltin (vm : Svm) (programId : Address) (entrypoint : Nat) : Svm :=
  let accounts : Accounts := { vm.accounts with
    programsCache := vm.accounts.programsCache.replenish programId (.builtin entrypoint) }
  vm.withAccounts (accounts.addAccountNoChecks programId builtinAccount)

def programdataAccount (db : Accounts) (programBytes : List UInt8) : AccountSharedData :=
  let state := UpgradeableLoaderState.serializeProgramData (db.currentSlot agave)
  let padding := List.replicate
    (UpgradeableLoaderState.sizeOfProgramdataMetadata - state.length) 0
  let data := state ++ padding ++ programBytes
  ⟨db.minimumBalanceForRentExemption agave data.length, data, Ids.bpfLoaderUpgradeable, false, 0⟩

/-- The accounts `add_program_internal` writes for a program, in its order. -/
def programAccountsFor (db : Accounts) (programId : Address) (programBytes : List UInt8)
    (loaderId : Address) : Option (List (Address × AccountSharedData)) :=
  if loaderId = Ids.bpfLoaderUpgradeable then
    let programdataAddress := agave.programDataAddress programId
    let program : AccountSharedData :=
      ⟨db.minimumBalanceForRentExemption agave UpgradeableLoaderState.sizeOfProgram,
        UpgradeableLoaderState.serializeProgram programdataAddress, loaderId, true, 0⟩
    some [(programdataAddress, programdataAccount agave db programBytes), (programId, program)]
  else if loaderId = Ids.bpfLoader ∨ loaderId = Ids.bpfLoaderDeprecated then
    some [(programId, ⟨db.minimumBalanceForRentExemption agave programBytes.length, programBytes,
      loaderId, true, 0⟩)]
  else none

/-- `add_program_internal`. The accounts are written before the ELF is loaded, and stay when it
is refused. -/
def addProgramInternal (vm : Svm) (programId : Address) (programBytes : List UInt8)
    (loaderId : Address) : Except HpsvmError Unit × Svm :=
  match programAccountsFor agave vm.accounts programId programBytes loaderId with
  | none => (.error (.invalidLoader programId loaderId), vm)
  | some writes =>
    let accounts := writes.foldl
      (fun accounts (address, account) => accounts.addAccountNoChecks address account) vm.accounts
    match agave.loadElf accounts.environments loaderId programBytes with
    | .error reason => (.error (.programLoad reason), vm.withAccounts accounts)
    | .ok () =>
      let entry := .loaded accounts.environments loaderId programBytes
      (.ok (), vm.withAccounts { accounts with
        programsCache := accounts.programsCache.replenish programId entry })

def addProgram (vm : Svm) (programId : Address) (programBytes : List UInt8) :
    Except HpsvmError Unit × Svm :=
  vm.addProgramInternal agave programId programBytes Ids.bpfLoaderUpgradeable

def addProgramWithLoader (vm : Svm) (programId : Address) (programBytes : List UInt8)
    (loaderId : Address) : Except HpsvmError Unit × Svm :=
  vm.addProgramInternal agave programId programBytes loaderId

/-- A program of `programs/mod.rs`. -/
structure BundledProgram where
  programId : Address
  elf : BundledElf
  loaderId : Address
deriving DecidableEq, Repr

/-- The programs of `load_spl_programs`; the token program depends on a feature. -/
def splPrograms (features : FeatureSet) : List BundledProgram :=
  [if features.isActive agave.replaceSplTokenWithPToken then
      ⟨Ids.splToken, .pinocchioToken, Ids.bpfLoaderUpgradeable⟩
    else ⟨Ids.splToken, .splToken, Ids.bpfLoader⟩,
    ⟨Ids.splToken2022, .splToken2022, Ids.bpfLoaderUpgradeable⟩,
    ⟨Ids.splAssociatedTokenAccount, .splAssociatedTokenAccount, Ids.bpfLoader⟩]

/-- The programs of `load_non_spl_default_programs`. -/
def nonSplDefaultPrograms : List BundledProgram :=
  [⟨Ids.splMemo1, .splMemo1, Ids.bpfLoaderDeprecated⟩,
    ⟨Ids.splMemo3, .splMemo3, Ids.bpfLoader⟩,
    ⟨Ids.config, .config, Ids.bpfLoaderUpgradeable⟩,
    ⟨Ids.addressLookupTable, .addressLookupTable, Ids.bpfLoaderUpgradeable⟩,
    ⟨Ids.stake, .coreBpfStake, Ids.bpfLoaderUpgradeable⟩]

def splProgramIds : List Address :=
  [Ids.splToken, Ids.splToken2022, Ids.splAssociatedTokenAccount]

def defaultProgramIds : List Address :=
  [Ids.splToken, Ids.splToken2022, Ids.splMemo1, Ids.splMemo3, Ids.splAssociatedTokenAccount,
    Ids.config, Ids.addressLookupTable, Ids.stake]

/-- `add_program_preverified` for each program, which is expected to succeed. -/
def addBundledPrograms (vm : Svm) : List BundledProgram → Option Svm
  | [] => some vm
  | program :: rest =>
    (expectOk (vm.addProgramInternal agave program.programId (agave.bundledElf program.elf)
      program.loaderId)).bind fun vm => addBundledPrograms vm rest

def loadSplPrograms (vm : Svm) : Option Svm :=
  let vm := { vm with materialized := { vm.materialized with splPrograms := true } }
  vm.addBundledPrograms agave (splPrograms agave vm.version.featureSet)

def loadDefaultPrograms (vm : Svm) : Option Svm :=
  let vm := { vm with materialized := { vm.materialized with defaultPrograms := true } }
  vm.addBundledPrograms agave (splPrograms agave vm.version.featureSet ++ nonSplDefaultPrograms)

/-- The loop of `clear_default_programs` and `clear_spl_programs`: a program of the upgradeable
loader takes its programdata with it. -/
def clearPrograms (vm : Svm) : List Address → Svm
  | [] => vm
  | programId :: rest =>
    let upgradeable := match vm.accounts.getAccountRef programId with
      | some account => account.owner == Ids.bpfLoaderUpgradeable
      | none => false
    let removed := if upgradeable then [agave.programDataAddress programId, programId]
      else [programId]
    clearPrograms (vm.removeAccounts agave removed) rest

def clearDefaultPrograms (vm : Svm) : Svm := vm.clearPrograms agave defaultProgramIds

def clearSplPrograms (vm : Svm) : Svm := vm.clearPrograms agave splProgramIds

/-! ### Environments, builtins and precompiles -/

/-- Registers the custom syscalls one after the other. -/
def registerSyscalls (features : FeatureSet) (registered : List CustomSyscall) :
    List CustomSyscall → Except HpsvmError (List CustomSyscall)
  | [] => .ok registered
  | syscall :: rest =>
    match agave.registerSyscall features registered syscall with
    | .error reason => .error (.customSyscallRegistration syscall.name "runtime" reason)
    | .ok () => registerSyscalls features (registered ++ [syscall]) rest

/-- `try_refresh_runtime_environments`. The environment shared process-wide is the one the default
configuration builds, so reusing it and building it give the same. -/
def tryRefreshRuntimeEnvironments (vm : Svm) : Except HpsvmError Unit × Svm :=
  let computeBudget := vm.version.computeBudget.getD
    (agave.defaultComputeBudget (vm.version.featureSet.isActive agave.raiseCpiNestingLimitTo8))
  match agave.createRuntimeEnvironment vm.version.featureSet computeBudget with
  | .error reason => (.error (.runtimeEnvironment "v1" reason), vm)
  | .ok () =>
    match registerSyscalls agave vm.version.featureSet [] vm.customSyscalls with
    | .error error => (.error error, vm)
    | .ok syscalls =>
      (.ok (), vm.withAccounts { vm.accounts with
        environments := ⟨vm.version.featureSet, vm.version.computeBudget, syscalls⟩ })

def refreshRuntimeEnvironments (vm : Svm) : Option Svm :=
  expectOk (vm.tryRefreshRuntimeEnvironments agave)

/-- The loop of `load_builtins`. -/
def installBuiltins (features : FeatureSet) (db : Accounts) : List BuiltinPrototype → Accounts
  | [] => db
  | builtin :: rest =>
    let enabled := match builtin.enableFeatureId with
      | none => true
      | some feature => features.isActive feature
    if enabled then
      let entry := .builtin builtin.registerFn
      let replenished : Accounts :=
        { db with programsCache := db.programsCache.replenish builtin.programId entry }
      installBuiltins features
        (replenished.addBuiltinAccount builtin.programId (createLoadableAccount builtin.name)) rest
    else installBuiltins features db rest

def loadBuiltins (vm : Svm) : Option Svm :=
  let vm := { vm with materialized := { vm.materialized with builtins := true } }
  (vm.refreshRuntimeEnvironments agave).map fun vm =>
    vm.withAccounts (installBuiltins vm.version.featureSet vm.accounts agave.builtins)

def clearBuiltinAccounts (vm : Svm) : Svm :=
  vm.removeAccounts agave (agave.builtins.map fun builtin => builtin.programId)

/-- `load_precompiles`: an account for each enabled precompile of the provider. -/
def loadPrecompiles (vm : Svm) : Option Svm :=
  let enabled := vm.precompiles.filter fun precompile =>
    (vm.findPrecompile precompile.programId).isSome
  expectOk (vm.setAccounts agave
    (enabled.map fun precompile => (precompile.programId, precompileAccount)))

def setPrecompileProvider (vm : Svm) (precompiles : List Precompile) : Option Svm :=
  { vm with precompiles := precompiles }.loadPrecompiles agave

def clearPrecompileAccounts (vm : Svm) : Svm :=
  vm.removeAccounts agave (vm.precompiles.map fun precompile => precompile.programId)

/-! ### Features and syscalls -/

/-- `Feature::size_of()`. -/
def featureSize : Nat := 9

def clearFeatureAccounts (vm : Svm) (previous : FeatureSet) : Svm :=
  vm.removeAccounts agave previous.active.keys

def materializeFeatureAccounts (vm : Svm) : Svm :=
  let lamports := vm.accounts.minimumBalanceForRentExemption agave featureSize
  let accounts := vm.version.featureSet.active.toList.foldl
    (fun accounts (featureId, slot) => accounts.addAccountNoChecks featureId
      ⟨lamports, agave.featureAccountData slot, Ids.feature, false, 0⟩) vm.accounts
  { vm.withAccounts accounts with
    materialized := { vm.materialized with featureAccounts := true } }

/-- The rebuild that ends a reconfiguration. -/
def rebuildPrograms (vm : Svm) : Except HpsvmError Unit × Svm :=
  match vm.accounts.rebuildProgramCache agave with
  | (.error error, accounts) => (.error (.instruction error), vm.withAccounts accounts)
  | (.ok (), accounts) => (.ok (), vm.withAccounts accounts)

/-- `reconfigure_materialized_feature_state` up to its final rebuild. -/
def rematerialize (vm : Svm) (previous : FeatureSet) : Option Svm := do
  let vm := if vm.materialized.featureAccounts then
      (vm.clearFeatureAccounts agave previous).materializeFeatureAccounts agave
    else vm
  let vm := if vm.materialized.defaultPrograms then vm.clearDefaultPrograms agave else vm
  let vm := if vm.materialized.splPrograms then vm.clearSplPrograms agave else vm
  let vm ←
    if vm.materialized.builtins then (vm.clearBuiltinAccounts agave).loadBuiltins agave
    else if vm.customSyscalls.isEmpty then some vm
    else vm.refreshRuntimeEnvironments agave
  let vm ←
    if vm.loadsStandardPrecompiles then (vm.clearPrecompileAccounts agave).loadPrecompiles agave
    else some vm
  let vm ← if vm.materialized.defaultPrograms then vm.loadDefaultPrograms agave else some vm
  if vm.materialized.splPrograms then vm.loadSplPrograms agave else some vm

/-- `set_feature_set`. A failed reconfiguration puts feature set, reserved keys and accounts back.
The program cache behind the accounts is the one the reconfiguration changed; it is rebuilt, and a
failure of that second rebuild is only logged. -/
def setFeatureSet (vm : Svm) (featureSet : FeatureSet) : Option (Except HpsvmError Unit × Svm) :=
  let configured := { vm with
    version := { vm.version with featureSet := featureSet }
    reservedAccountKeys := agave.reservedAccountKeys featureSet }
  (configured.rematerialize agave vm.version.featureSet).map fun rematerialized =>
    match rematerialized.rebuildPrograms agave with
    | (.ok (), vm) => (.ok (), vm)
    | (.error error, failed) =>
      let restored := { failed with
        version := { failed.version with featureSet := vm.version.featureSet }
        reservedAccountKeys := vm.reservedAccountKeys
        accounts := { vm.accounts with programsCache := failed.accounts.programsCache } }
      (.error error, (restored.rebuildPrograms agave).2)

/-- `register_custom_syscall`. The registration stays when the environment or a program is
refused. -/
def registerCustomSyscall (vm : Svm) (syscall : CustomSyscall) : Except HpsvmError Unit × Svm :=
  let registered := { vm with customSyscalls := vm.customSyscalls ++ [syscall] }
  match registered.tryRefreshRuntimeEnvironments agave with
  | (.error error, vm) => (.error error, vm)
  | (.ok (), vm) => vm.rebuildPrograms agave

end Svm

/-! ### Instructions on a throwaway clone -/

structure InstructionCase where
  programId : Address
  accounts : List AccountMeta
  data : List UInt8
  preAccounts : List (Address × AccountSharedData)
deriving DecidableEq, Repr

namespace InstructionCase

def instruction (case : InstructionCase) : Instruction := ⟨case.programId, case.accounts, case.data⟩

/-- `fee_payer_for_instruction_case`, given the address `Address::new_unique` would answer. -/
def feePayer (case : InstructionCase) (unique : Address) : Address :=
  let account :=
    (case.accounts.find? fun account => account.isSigner).or
      ((case.accounts.find? fun account => account.isWritable).or case.accounts.head?)
  (account.map fun account => account.pubkey).getD unique

end InstructionCase

/-- `fee_payer_for_instructions`. -/
def feePayerForInstructions (instructions : List Instruction) (fallback : Address) : Address :=
  let accounts := instructions.flatMap fun instruction => instruction.accounts
  let account := (accounts.find? fun account => account.isSigner).or
    (accounts.find? fun account => account.isWritable)
  (account.map fun account => account.pubkey).getD fallback

namespace Svm

variable (agave : Agave)

def setSigverify (vm : Svm) (sigverify : Bool) : Svm :=
  { vm with version := { vm.version with sigverify := sigverify } }

def instructionChainTransaction (vm : Svm) (instructions : List Instruction) :
    VersionedTransaction :=
  agave.compileMessage instructions (feePayerForInstructions instructions vm.airdropPubkey)
    vm.blockEnv.latestBlockhash

/-- `process_instruction_chain`, which verifies no signature of its own transaction. -/
def processInstructionChain (vm : Svm) (instructions : List Instruction) :
    TransactionResult × Svm :=
  let tx := vm.instructionChainTransaction agave instructions
  let (result, sent) := (vm.setSigverify false).sendTransaction agave tx
  (result, sent.setSigverify vm.version.sigverify)

def processInstructionChainWithAccounts (vm : Svm) (instructions : List Instruction)
    (preAccounts : List (Address × AccountSharedData)) : TransactionResult × Svm :=
  match vm.setAccounts agave preAccounts with
  | (.error _, vm) => (.error ⟨.instructionError 0 .invalidAccountData, {}⟩, vm)
  | (.ok (), vm) => vm.processInstructionChain agave instructions

/-- `airdrop`, given the signed transfer it builds: the transfer runs without the source. -/
def airdrop (vm : Svm) (tx : VersionedTransaction) : TransactionResult × Svm :=
  let (result, sent) := (vm.setAccountSource .empty).sendTransaction agave tx
  (result, sent.setAccountSource vm.accounts.source)

/-- The VM after a call that worked on a clone: the clone is dropped, but it held the same program
cache. -/
def afterClone (vm working : Svm) : Svm :=
  vm.withAccounts { vm.accounts with programsCache := working.accounts.programsCache }

/-- The account `process_instruction_case` gives to a fee payer that has none. -/
def feePayerAccount : AccountSharedData :=
  { AccountSharedData.default with lamports := 1_000_000_000 }

/-- The preparation of the clone in `process_instruction_case`. -/
def prepareCase (vm : Svm) (case : InstructionCase) (payer : Address) :
    Except HpsvmError Unit × Svm :=
  match (vm.setSigverify false).setAccounts agave case.preAccounts with
  | (.error error, working) => (.error error, working)
  | (.ok (), working) =>
    match working.getAccount payer with
    | some _ => (.ok (), working)
    | none => working.setAccount agave payer feePayerAccount

/-- `process_instruction_case`, with the VM the call leaves. -/
def processInstructionCase (vm : Svm) (case : InstructionCase) (unique : Address) :
    Except HpsvmError DetachedTx × Svm :=
  let payer := case.feePayer unique
  match vm.prepareCase agave case payer with
  | (.error error, working) => (.error error, vm.afterClone working)
  | (.ok (), working) =>
    let tx := agave.compileMessage [case.instruction] payer working.blockEnv.latestBlockhash
    (working.tryTransact agave tx, vm.afterClone working)

/-- `simulate_instruction_chain_with_accounts`, with the VM the call leaves. -/
def simulateInstructionChainWithAccounts (vm : Svm) (instructions : List Instruction)
    (preAccounts : List (Address × AccountSharedData)) :
    Except FailedTransactionMetadata SimulatedTransactionInfo × Svm :=
  match vm.setAccounts agave preAccounts with
  | (.error _, working) =>
    (.error ⟨.instructionError 0 .invalidAccountData, {}⟩, vm.afterClone working)
  | (.ok (), working) =>
    let working := working.setSigverify false
    let tx := working.instructionChainTransaction agave instructions
    (working.simulateTransaction agave tx, vm.afterClone working)

end Svm

end Hpsvm
