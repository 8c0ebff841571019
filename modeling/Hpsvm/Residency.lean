import Hpsvm.Foundation.LruCache
import Hpsvm.Setup

/-!
# Resident programs of a process

The process-wide store of verified executables (`programs/entry_store.rs`) and the environments its
keys refer to. An environment lives behind an `Arc`; a key holds the address of that `Arc`, and the
store keeps neither it nor the environment at that address alive. The allocator may give the address
of a freed environment to a new one.
-/

namespace Hpsvm

open Foundation

/-- A runtime environment as an object: no two are the same, whatever they were built from. -/
structure EnvObject where
  serial : Nat
  content : RuntimeEnvironment

/-- An `Arc<ProgramRuntimeEnvironments>`. -/
structure EnvArc where
  address : Nat
  env : EnvObject

/-- A `ProgramCacheEntry` that the store keeps, known by what it was built from. -/
structure ResidentEntry where
  env : EnvObject
  loader : Address
  elf : List UInt8

/-- The digests are those of an ideal hash: a digest of bounded size cannot tell all bytes apart. -/
structure ProgramEntryKey (Digest : Type) where
  env : Nat
  hash : Digest
  loader : Address
  slotBucket : Nat
deriving DecidableEq

/-- The key of the memo for `include_bytes!` statics: environment, slice pointer and length, and
loader. -/
structure DefaultProgramKey where
  env : Nat
  elfPtr : Nat
  elfLen : Nat
  loader : Address
deriving DecidableEq

/-- `PROGRAM_ENTRY_CAPACITY`. -/
def programEntryCapacity : Nat := 256

/-- `IMMEDIATE_DEPLOYMENT_SLOT`. -/
def immediateDeploymentSlot : Nat := 2 ^ 64 - 1

/-- What the process rests on: the runtime, SHA-256, the bytes of the static slices, the
environment of an empty database, and `FeatureSet::all_enabled`. -/
structure Host (Digest : Type) where
  agave : Agave
  sha256 : List UInt8 → Digest
  staticBytes : Nat → Nat → List UInt8
  emptyEnvironment : RuntimeEnvironment
  isAllEnabled : FeatureSet → Bool

/-- The configuration of a VM that its environment is built from. -/
structure EnvConfig where
  features : FeatureSet
  computeBudget : Option ComputeBudget
  customSyscalls : List CustomSyscall

/-- The bytes of a program: a static slice, which is preverified and memoized by its pointer, or
any other. -/
inductive ElfSource
  | preverified (elfPtr elfLen : Nat)
  | bytes (elf : List UInt8)

abbrev ProgramEntryStore (Digest : Type) := LruCache (ProgramEntryKey Digest) ResidentEntry

section

variable {Digest : Type} [DecidableEq Digest]

namespace ProgramEntryStore

/-- The first writer wins. -/
def insert (store : ProgramEntryStore Digest) (key : ProgramEntryKey Digest)
    (entry : ResidentEntry) : ResidentEntry × ProgramEntryStore Digest :=
  match store.get key with
  | (some existing, store) => (existing, store)
  | (none, store) => (entry, store.put key entry)

end ProgramEntryStore

/-- The VMs of a process with their environments, the shared default environment, and the two
caches of executables. `nextSerial` numbers the environments. -/
structure Process (Digest : Type) where
  vms : List (Nat × EnvArc)
  defaultEnv : Option EnvArc
  store : ProgramEntryStore Digest
  defaultPrograms : List (DefaultProgramKey × ResidentEntry)
  nextSerial : Nat

namespace Process

variable (host : Host Digest)

def start : Process Digest := ⟨[], none, LruCache.empty programEntryCapacity, [], 0⟩

/-- The holders of environments: an environment is freed with its last holder. -/
def handles (process : Process Digest) : List EnvArc :=
  process.defaultEnv.toList ++ process.vms.map Prod.snd

def find (process : Process Digest) (vm : Nat) : Option EnvArc := process.vms.lookup vm

def drop (process : Process Digest) (vm : Nat) : Process Digest :=
  { process with vms := process.vms.filter fun (other, _) => other != vm }

/-- `set_runtime_environments_arc`. -/
def setEnv (process : Process Digest) (vm : Nat) (arc : EnvArc) : Process Digest :=
  { process with vms := (vm, arc) :: (process.drop vm).vms }

/-- The allocator answers an address that is not in use. -/
def isFree (process : Process Digest) (address : Nat) : Bool :=
  process.handles.all fun arc => arc.address != address

/-- `Arc::new` of a new environment. -/
def allocate (process : Process Digest) (content : RuntimeEnvironment) (address : Nat) :
    EnvArc × Process Digest :=
  (⟨address, process.nextSerial, content⟩, { process with nextSerial := process.nextSerial + 1 })

/-! ### Loading -/

def contentKey (env : Nat) (elf : List UInt8) (loader : Address) : ProgramEntryKey Digest :=
  ⟨env, host.sha256 elf, loader, immediateDeploymentSlot⟩

/-- The lookup in the store, and the fresh load on a miss; the end of `load_program`, and of
`resolve_program_entry` without its fast path. -/
def loadResident (process : Process Digest) (arc : EnvArc) (loader : Address) (elf : List UInt8) :
    Option ResidentEntry × Process Digest :=
  let key := contentKey host arc.address elf loader
  match process.store.get key with
  | (some resident, store) => (some resident, { process with store := store })
  | (none, store) =>
    match host.agave.loadElf arc.env.content loader elf with
    | .error _ => (none, { process with store := store })
    | .ok () =>
      let (resident, store) := ProgramEntryStore.insert store key ⟨arc.env, loader, elf⟩
      (some resident, { process with store := store })

/-- `shared_default_env_ptr`. -/
def sharedDefaultEnvPtr (process : Process Digest) (arc : EnvArc) : Option Nat :=
  match process.defaultEnv with
  | none => none
  | some shared => if arc.address = shared.address then some shared.address else none

/-- The key of the fast path, for a static slice under the shared environment at slot 0. -/
def fastKey (process : Process Digest) (arc : EnvArc) (loader : Address) (slot : Nat) :
    ElfSource → Option DefaultProgramKey
  | .preverified elfPtr elfLen =>
    if slot = 0 then
      (process.sharedDefaultEnvPtr arc).map fun env => ⟨env, elfPtr, elfLen, loader⟩
    else none
  | .bytes _ => none

/-- `entry(key).or_insert(entry)`. -/
def orInsert (process : Process Digest) (key : DefaultProgramKey) (entry : ResidentEntry) :
    ResidentEntry × Process Digest :=
  match process.defaultPrograms.lookup key with
  | some existing => (existing, process)
  | none => (entry, { process with defaultPrograms := (key, entry) :: process.defaultPrograms })

def sourceBytes : ElfSource → List UInt8
  | .preverified elfPtr elfLen => host.staticBytes elfPtr elfLen
  | .bytes elf => elf

/-- `resolve_program_entry`. -/
def resolveProgramEntry (process : Process Digest) (arc : EnvArc) (loader : Address) (slot : Nat)
    (source : ElfSource) : Option ResidentEntry × Process Digest :=
  match process.fastKey arc loader slot source with
  | none => process.loadResident host arc loader (sourceBytes host source)
  | some key =>
    match process.defaultPrograms.lookup key with
    | some entry => (some entry, process)
    | none =>
      match process.loadResident host arc loader (sourceBytes host source) with
      | (none, process) => (none, process)
      | (some resident, process) =>
        -- The fast path is filled with the winner of the store.
        let (winner, process) := process.orInsert key resident
        (some winner, process)

/-! ### Environments -/

/-- What `try_refresh_runtime_environments` builds. -/
def buildEnvironment (config : EnvConfig) : Option RuntimeEnvironment :=
  let computeBudget := config.computeBudget.getD (host.agave.defaultComputeBudget
    (config.features.isActive host.agave.raiseCpiNestingLimitTo8))
  match host.agave.createRuntimeEnvironment config.features computeBudget with
  | .error _ => none
  | .ok () =>
    match Svm.registerSyscalls host.agave config.features [] config.customSyscalls with
    | .error _ => none
    | .ok syscalls => some ⟨config.features, config.computeBudget, syscalls⟩

def isDefaultConfig (config : EnvConfig) : Bool :=
  config.computeBudget.isNone && config.customSyscalls.isEmpty && host.isAllEnabled config.features

/-- `try_refresh_runtime_environments`. The new environment is allocated while the VM still holds
its old one. -/
def refresh (process : Process Digest) (vm : Nat) (config : EnvConfig) (address : Nat) : Process Digest :=
  match isDefaultConfig host config, process.defaultEnv with
  | true, some shared => process.setEnv vm shared
  | isDefault, _ =>
    match buildEnvironment host config with
    | none => process
    | some content =>
      let (arc, process) := process.allocate content address
      let process := if isDefault then { process with defaultEnv := some arc } else process
      process.setEnv vm arc

end Process

/-! ### Histories of a process -/

/-- What happens to the VMs of a process. A VM keeps the name it is given when it is created; an
operation that allocates comes with the address the allocator answers. -/
inductive ProcessOp
  | create (vm address : Nat)
  | clone (source vm : Nat)
  | refresh (vm : Nat) (config : EnvConfig) (address : Nat)
  | drop (vm : Nat)
  | loadProgram (vm : Nat) (loader : Address) (elf : List UInt8)
  | resolveProgramEntry (vm : Nat) (loader : Address) (slot : Nat) (source : ElfSource)

namespace ProcessOp

variable (host : Host Digest)

/-- `none` if there is no such VM, its name is taken, or the address is in use. -/
def step : ProcessOp → Process Digest → Option (Process Digest)
  | create vm address, process =>
    if (process.find vm).isNone && process.isFree address then
      let (arc, process) := process.allocate host.emptyEnvironment address
      some (process.setEnv vm arc)
    else none
  | clone source vm, process =>
    if (process.find vm).isNone then (process.find source).map fun arc => process.setEnv vm arc
    else none
  | refresh vm config address, process =>
    if (process.find vm).isSome && process.isFree address then
      some (process.refresh host vm config address)
    else none
  | drop vm, process => (process.find vm).map fun _ => process.drop vm
  | loadProgram vm loader elf, process =>
    (process.find vm).map fun arc => (process.loadResident host arc loader elf).2
  | resolveProgramEntry vm loader slot source, process =>
    (process.find vm).map fun arc => (process.resolveProgramEntry host arc loader slot source).2

end ProcessOp

end

end Hpsvm
