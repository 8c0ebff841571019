import Hpsvm.Setup

/-!
# Building a VM

The construction of `vm.rs` and `builder.rs`: a VM without accounts, and the plan of a builder that
is carried out on it. `none` is the panic of an `expect`.
-/

namespace Hpsvm

/-- What a new VM takes from the crates it is built on. -/
structure Genesis where
  -- `FeatureSet::default()` and `FeatureSet::all_enabled()`.
  defaultFeatures : FeatureSet
  allEnabled : FeatureSet
  -- The environment of a loader without functions.
  emptyEnvironment : RuntimeEnvironment
  -- `create_blockhash(b"genesis")`.
  blockhash : Hash
  -- `FeeStructure::default()`.
  lamportsPerSignature : Nat
  -- `NativePrecompiles::new()`; none without the `precompiles` feature.
  precompiles : List Precompile
  -- The account data of a sysvar's first value: the rent follows the feature set, the slot hashes
  -- the slot and the blockhash, the recent blockhashes the blockhash.
  sysvarData : Sysvar → FeatureSet → Nat → Hash → List UInt8
  slotHistoryData : List UInt8

/-- `LAMPORTS_PER_SOL`. -/
def lamportsPerSol : Nat := 1_000_000_000

/-- `Accounts::default()`. -/
def Accounts.new (genesis : Genesis) : Accounts where
  source := .empty
  cache := .empty
  programsCache := .new 0
  sysvarCache := fun _ => none
  environments := genesis.emptyEnvironment
  journal := []

namespace Svm

variable (agave : Agave) (genesis : Genesis)

/-- `new_inner`, given the public key of the keypair it draws. -/
def newInner (airdropPubkey : Address) : Svm where
  accounts := .new genesis
  history := .new
  version :=
    { featureSet := genesis.defaultFeatures
      lamportsPerSignature := genesis.lamportsPerSignature
      computeBudget := none
      logBytesLimit := some 10_000
      sigverify := false
      blockhashCheck := false
      computeDiagnostics := true }
  blockEnv := ⟨genesis.blockhash, 0⟩
  materialized := {}
  precompiles := genesis.precompiles
  loadsStandardPrecompiles := false
  customSyscalls := []
  reservedAccountKeys := agave.reservedAccountKeys genesis.defaultFeatures
  airdropPubkey := airdropPubkey

/-! ### Configuration -/

def setComputeBudget (vm : Svm) (computeBudget : ComputeBudget) : Svm :=
  { vm with version := { vm.version with computeBudget := some computeBudget } }

/-- Without a budget of its own the VM takes the default one as its new budget. -/
def setComputeUnitLimit (vm : Svm) (computeUnitLimit : Nat) : Svm :=
  let computeBudget := vm.version.computeBudget.getD
    (agave.defaultComputeBudget (vm.version.featureSet.isActive agave.raiseCpiNestingLimitTo8))
  vm.setComputeBudget { computeBudget with computeUnitLimit := computeUnitLimit }

def setBlockhashCheck (vm : Svm) (check : Bool) : Svm :=
  { vm with version := { vm.version with blockhashCheck := check } }

def setComputeDiagnostics (vm : Svm) (enabled : Bool) : Svm :=
  { vm with version := { vm.version with computeDiagnostics := enabled } }

def setLogBytesLimit (vm : Svm) (limit : Option Nat) : Svm :=
  { vm with version := { vm.version with logBytesLimit := limit } }

/-! ### Sysvars and precompiles -/

/-- `set_sysvar_internal` for the first values of sysvars in turn. -/
def setFirstSysvars (vm : Svm) : List Sysvar → Option Svm
  | [] => some vm
  | sysvar :: rest =>
    let data := genesis.sysvarData sysvar vm.version.featureSet (vm.accounts.currentSlot agave)
      vm.blockEnv.latestBlockhash
    (expectOk (vm.setSysvar agave sysvar data)).bind fun vm => setFirstSysvars vm rest

/-- The stake history goes to the database directly, and the block environment is not synced
after it. -/
def addStakeHistory (vm : Svm) : Option Svm :=
  let data := genesis.sysvarData .stakeHistory vm.version.featureSet
    (vm.accounts.currentSlot agave) vm.blockEnv.latestBlockhash
  match vm.accounts.addAccount agave Sysvar.stakeHistory.id (sysvarAccount data) with
  | (.error _, _) => none
  | (.ok (), accounts) => some (vm.withAccounts accounts)

def setSysvars (vm : Svm) : Option Svm := do
  let vm := { vm with materialized := { vm.materialized with sysvars := true } }
  let vm ← vm.setFirstSysvars agave genesis
    [.clock, .epochRewards, .epochSchedule, .fees, .lastRestartSlot, .recentBlockhashes, .rent,
      .slotHashes]
  let vm ← expectOk (vm.setAccount agave Ids.slotHistory (sysvarAccount genesis.slotHistoryData))
  vm.addStakeHistory agave genesis

def setPrecompiles (vm : Svm) : Option Svm :=
  { vm with loadsStandardPrecompiles := true }.loadPrecompiles agave

end Svm

/-! ### The builder -/

inductive LogBytesLimitPlan
  | inherit
  | explicit (limit : Option Nat)

/-- `BuildPlan`. The inspector only observes the VM, and the tiering policy and register tracing
only concern how a program is compiled. -/
structure BuildPlan where
  featureSet : Option FeatureSet := none
  computeBudget : Option ComputeBudget := none
  sigverify : Option Bool := none
  blockhashCheck : Option Bool := none
  computeDiagnostics : Option Bool := none
  lamports : Option Nat := none
  includeSysvars : Bool := false
  includeFeatureAccounts : Bool := false
  includeBuiltins : Bool := false
  includeSplPrograms : Bool := false
  includeDefaultPrograms : Bool := false
  includePrecompiles : Bool := false
  precompileProvider : Option (List Precompile) := none
  transactionHistory : Option Nat := none
  accountSource : Option AccountSource := none
  logBytesLimit : LogBytesLimitPlan := .inherit
  customSyscalls : List CustomSyscall := []

namespace BuildPlan

variable (agave : Agave) (genesis : Genesis)

def applyProgramTestDefaults (plan : BuildPlan) : BuildPlan :=
  { plan with
    lamports := some (plan.lamports.getD (1_000_000 * lamportsPerSol))
    includeSysvars := true
    includeFeatureAccounts := true
    includeBuiltins := true
    includeDefaultPrograms := true
    includePrecompiles := true
    sigverify := some (plan.sigverify.getD true)
    blockhashCheck := some (plan.blockhashCheck.getD true) }

/-- `with_program_test_defaults`, before a feature-dependent part was queued. -/
def withProgramTestDefaults (plan : BuildPlan) : BuildPlan :=
  { plan with featureSet := some (plan.featureSet.getD genesis.allEnabled) }.applyProgramTestDefaults

def needsSysvars (plan : BuildPlan) : Bool :=
  plan.includeBuiltins || plan.includeDefaultPrograms || plan.includeSplPrograms ||
    plan.includePrecompiles || plan.sigverify == some true || plan.blockhashCheck == some true

/-- The settings of `build` that follow the feature set. -/
def applySettings (plan : BuildPlan) (vm : Svm) : Svm :=
  let vm := (plan.computeBudget.map vm.setComputeBudget).getD vm
  let vm := (plan.transactionHistory.map vm.setTransactionHistory).getD vm
  let vm := (plan.accountSource.map vm.setAccountSource).getD vm
  let vm := match plan.logBytesLimit with
    | .inherit => vm
    | .explicit limit => vm.setLogBytesLimit limit
  { vm with customSyscalls := vm.customSyscalls ++ plan.customSyscalls }

/-- The part of `build` that can fail: the feature set, the settings and the custom syscalls. -/
def configure (plan : BuildPlan) (vm : Svm) : Option (Except HpsvmError Svm) :=
  let selected : Option (Except HpsvmError Unit × Svm) := match plan.featureSet with
    | none => some (.ok (), vm)
    | some featureSet => vm.setFeatureSet agave featureSet
  selected.map fun
    | (.error error, _) => .error error
    | (.ok (), vm) =>
      let vm := plan.applySettings vm
      -- With builtins the environments are built when these are loaded.
      if !plan.customSyscalls.isEmpty && !plan.includeBuiltins then
        match vm.tryRefreshRuntimeEnvironments agave with
        | (.error error, _) => .error error
        | (.ok (), vm) =>
          match vm.rebuildPrograms agave with
          | (.error error, _) => .error error
          | (.ok (), vm) => .ok vm
      else .ok vm

/-- The part of `build` that fills the VM. -/
def materialize (plan : BuildPlan) (vm : Svm) : Option Svm := do
  let vm ← if plan.includeBuiltins then vm.loadBuiltins agave else some vm
  let vm := (plan.lamports.map vm.setLamports).getD vm
  let vm ← if plan.includeSysvars then vm.setSysvars agave genesis else some vm
  let vm := if plan.includeFeatureAccounts then vm.materializeFeatureAccounts agave else vm
  let vm ←
    if plan.includeDefaultPrograms then vm.loadDefaultPrograms agave
    else if plan.includeSplPrograms then vm.loadSplPrograms agave
    else some vm
  let vm ← if plan.includePrecompiles then vm.setPrecompiles agave else some vm
  let vm ← match plan.precompileProvider with
    | some precompiles => vm.setPrecompileProvider agave precompiles
    | none => some vm
  let vm := (plan.sigverify.map vm.setSigverify).getD vm
  let vm := (plan.blockhashCheck.map vm.setBlockhashCheck).getD vm
  return (plan.computeDiagnostics.map vm.setComputeDiagnostics).getD vm

def build (plan : BuildPlan) (airdropPubkey : Address) : Option (Except HpsvmError Svm) :=
  if plan.needsSysvars && !plan.includeSysvars then
    some (.error (.missingRuntimeComponent "sysvars"))
  else
    (plan.configure agave (.newInner agave genesis airdropPubkey)).bind fun
      | .error error => some (.error error)
      | .ok vm => (plan.materialize agave genesis vm).map .ok

end BuildPlan

/-- `HPSVM::new`, given the public key of the airdrop keypair. -/
def Svm.new (agave : Agave) (genesis : Genesis) (airdropPubkey : Address) : Option Svm :=
  match (BuildPlan.withProgramTestDefaults genesis {}).build agave genesis airdropPubkey with
  | some (.ok vm) => some vm
  | _ => none

end Hpsvm
