import Hpsvm.Foundation.LruCache
import Hpsvm.Residency
import Hpsvm.Tiering

/-!
# Program tiers

The executables of a process and how they become native code: the load on a miss of the resident
store (`load_program`, `entry_store.rs`), invocations, the sweep after a transaction (`observe`),
`prewarm_programs`, and the workers of the promotion pools. Threads of all VMs interleave, and a step
is one operation on what they share. A call of the promoter and its job take the steps of
`TierPromoter.program`; here its entry is a real one, so whether it is compiled is no longer left
open. The memo for static slices is left out: it answers entries of the store.
-/

namespace Hpsvm

open Foundation

/-! ### Targets and policies -/

/-- The target that the crate is built for. -/
structure Target where
  x86 : Bool
  windows : Bool

/-- sbpf compiles on x86_64, but not for Windows. -/
def Target.hasJit (target : Target) : Bool := target.x86 && !target.windows

namespace JitPolicy

def requiresUncompiledLoad : JitPolicy → Bool
  | eager => false
  | lazy _ => true
  | off => true

def hotThreshold (policy : JitPolicy) (x86 : Bool) : Option Nat :=
  match policy.effective x86 with
  | lazy hotThreshold => some hotThreshold
  | eager => none
  | off => none

def isLazy (policy : JitPolicy) (x86 : Bool) : Bool := (policy.hotThreshold x86).isSome

end JitPolicy

/-- A promoter and the VMs that share it: those of one policy. `set_jit_policy` makes a new one. -/
structure TierVm where
  policy : JitPolicy
  poolBuilds : Bool

/-- What the process runs on, and its VMs. -/
structure TierHost where
  target : Target
  cpus : Nat
  vms : Nat → TierVm

namespace TierHost

def policy (host : TierHost) (vm : Nat) : JitPolicy := (host.vms vm).policy

def promoter (host : TierHost) (vm : Nat) : TierPromoter :=
  .new (host.policy vm) host.target.x86 (host.vms vm).poolBuilds

/-- The threads of a pool. -/
def threads (host : TierHost) : Nat := max 1 (min ((host.cpus + 1) / 2) 4)

/-- Whether a fresh load compiles: `ProgramCacheEntry::load` does where there is a compiler, and
`load_program_uncompiled` does not. -/
def loadsNative (host : TierHost) (vm : Nat) : Bool :=
  if (host.policy vm).requiresUncompiledLoad && host.target.x86 then false else host.target.hasJit

end TierHost

/-! ### Entries -/

/-- A `ProgramCacheEntry`: what it was loaded from, unless it is a builtin or a tombstone, and what
changes behind its `Arc`. -/
structure TierEntry (κ : Type) where
  program : Option κ
  compiled : Bool
  interpretedInvocations : Nat
  jitInvocations : Nat
  compilations : Nat
deriving DecidableEq, Repr

namespace TierEntry

variable {κ : Type}

def fresh (program : Option κ) (compiled : Bool) : TierEntry κ :=
  ⟨program, compiled, 0, 0, compiled.toNat⟩

def isLoaded (entry : TierEntry κ) : Bool := entry.program.isSome

def hasCompiledProgram (entry : TierEntry κ) (target : Target) : Bool :=
  target.hasJit && entry.isLoaded && entry.compiled

/-- `compile_entry`, from whether its check found a compiled program and what `jit_compile` answers
otherwise. -/
def compileEntry (entry : TierEntry κ) (target : Target) (found jit : Bool) : Bool :=
  target.hasJit && entry.isLoaded && (found || jit)

/-- The runtime counts an invocation. -/
def count (entry : TierEntry κ) (native : Bool) : TierEntry κ :=
  if native then
    { entry with jitInvocations := (entry.jitInvocations + 1) % atomicRange }
  else
    { entry with interpretedInvocations := (entry.interpretedInvocations + 1) % atomicRange }

/-- What a promotion does to its entry as it gets to a phase: it publishes the compiled program, and
counts the compilation before it counts its success. -/
def promotedTo (entry : TierEntry κ) : PromotionPhase → TierEntry κ
  | .compiled _ true _ => { entry with compiled := true }
  | .counted _ true _ => { entry with compilations := (entry.compilations + 1) % atomicRange }
  | _ => entry

end TierEntry

/-- What the threads share: the entries behind their `Arc`s in the order they were made, the resident
store, the jobs that wait for a worker, and the atomics of each promoter. -/
structure Tiers (κ : Type) where
  entries : List (TierEntry κ)
  store : LruCache κ Nat
  queue : List (Nat × Nat)
  atomics : Nat → PromoterAtomics

namespace Tiers

variable {κ : Type}

def start : Tiers κ := ⟨[], LruCache.empty programEntryCapacity, [], fun _ => .zero⟩

def allocate (tiers : Tiers κ) (entry : TierEntry κ) : Tiers κ :=
  { tiers with entries := tiers.entries ++ [entry] }

def update (tiers : Tiers κ) (entry : Nat) (change : TierEntry κ → TierEntry κ) : Tiers κ :=
  { tiers with entries := tiers.entries.modify entry change }

end Tiers

/-! ### Threads -/

/-- Who promotes. -/
inductive PromotionCaller
  | sweep
  | prewarm
deriving DecidableEq, Repr

/-- Where a thread is. An entry is named by its place among the entries. -/
inductive TierPhase (κ : Type)
  -- A load: looks the key up, loads on a miss, and lets the first writer win.
  | load (vm : Nat) (key : κ)
  | missed (vm : Nat) (key : κ)
  | fresh (vm : Nat) (key : κ) (entry : Nat)
  | refused (vm : Nat) (key : κ)
  -- A builtin or a tombstone, which the store does not keep.
  | install (vm : Nat)
  -- The entry is in the program cache of a VM.
  | linked (vm : Nat) (key : Option κ) (entry : Nat)
  -- An invocation.
  | invoke (entry : Nat)
  | running (entry : Nat) (native : Bool)
  | invoked
  -- The sweep over a snapshot of the entries of a VM.
  | observe (vm : Nat) (entries : List Nat)
  | sweep (vm : Nat) (rest : List Nat)
  | seen (vm entry : Nat) (rest : List Nat)
  -- `prewarm_programs`, with the entries it found for its programs.
  | prewarm (vm : Nat) (entries : List Nat)
  | gather (vm : Nat) (rest kept : List Nat)
  | warm (vm : Nat) (rest : List Nat)
  -- A call of `promote` or `promote_blocking` by either of them.
  | promoting (vm entry : Nat) (caller : PromotionCaller) (call : PromotionPhase) (rest : List Nat)
  | ended (vm : Nat)
  | unwound (vm : Nat)
  -- A worker of a pool.
  | worker (vm : Nat)
  | working (vm entry : Nat) (job : PromotionPhase)
deriving DecidableEq, Repr

/-- What the threads do not decide: whether an ELF loads, how compiling ends, and which job a worker
takes. -/
inductive TierChoice
  | proceed
  | load (ok : Bool)
  | compile (found jit : Bool) (micros : Nat)
  | panic
  | take (job : Nat)
deriving DecidableEq, Repr

/-- What the threads do to entries. -/
inductive TierEvent
  | loaded (vm entry : Nat) (native : Bool)
  | ran (entry : Nat) (native : Bool)
  | prewarmed (vm entry : Nat)
  | promoted (vm entry : Nat) (outcome : Bool)
  | dropped (vm entry : Nat)
  | panicked (vm entry : Nat)
deriving DecidableEq, Repr

/-- What a promotion reports as it gets to a phase. -/
def promotionEvents (vm entry : Nat) : PromotionPhase → List TierEvent
  | .compiled _ outcome _ => [.promoted vm entry outcome]
  | .dropped => [.dropped vm entry]
  | .unwinding _ _ => [.panicked vm entry]
  | _ => []

namespace TierPhase

variable {κ : Type}

/-- Where a caller goes on after it called the promoter: back in its loop, unless the call goes on. -/
def resume (vm entry : Nat) (caller : PromotionCaller) (rest : List Nat) :
    PromotionPhase → TierPhase κ
  | .aborted _ => .unwound vm
  | call =>
    if call.idle || call = .queued then
      match caller with
      | .sweep => .sweep vm rest
      | .prewarm => .warm vm rest
    else .promoting vm entry caller call rest

/-- Where a worker goes on. It does not get over a panic. -/
def dispatch (vm entry : Nat) : PromotionPhase → TierPhase κ
  | .finished _ _ _ => .worker vm
  | job => .working vm entry job

/-- Keeps an entry alive for its VM. -/
def holds (entry : Nat) : TierPhase κ → Bool
  | .linked _ _ other => other == entry
  | _ => false

/-- A thread of the pool of a VM. -/
def isWorker (vm : Nat) : TierPhase κ → Nat
  | .worker other => (other == vm).toNat
  | .working other _ _ => (other == vm).toNat
  | _ => 0

/-- The key that a thread loads or has loaded. -/
def key? : TierPhase κ → Option κ
  | .load _ key => some key
  | .missed _ key => some key
  | .fresh _ key _ => some key
  | .refused _ key => some key
  | .linked _ key _ => key
  | _ => none

end TierPhase

namespace TierHost

variable {κ : Type} (host : TierHost)

/-- What the promoter learns of its entry. A check that finds a compiled program finds one that is
there; one that finds none may have come before it. -/
def promotionChoice (entry : TierEntry κ) : PromotionPhase → TierChoice → Option PromotionChoice
  | .entered _, .proceed => some (.observe (entry.hasCompiledProgram host.target))
  | _, .proceed => some .proceed
  | _, .compile found jit micros =>
    if found && !entry.hasCompiledProgram host.target then none
    else some (.compile (entry.compileEntry host.target found jit) micros)
  | _, .panic => some .panic
  | _, _ => none

/-- A step of a call of the promoter, or of its job. -/
def promotionStep (vm entry : Nat) (call : PromotionPhase) (choice : TierChoice) (tiers : Tiers κ) :
    Option (PromotionPhase × Tiers κ × List TierEvent) := do
  let current ← tiers.entries[entry]?
  let choice ← host.promotionChoice current call choice
  let (call, atomics, _) ← (host.promoter vm).program call choice (tiers.atomics vm)
  let tiers := { tiers with atomics := Function.update tiers.atomics vm atomics }
  some (call, tiers.update entry fun current => current.promotedTo call,
    promotionEvents vm entry call)

section

variable [DecidableEq κ]

/-- What every thread does next. -/
def program : Interleaving.Program (TierPhase κ) TierChoice (Tiers κ) TierEvent
  | .load vm key, .proceed, tiers =>
    match tiers.store.get key with
    | (some resident, store) =>
      some (.linked vm (some key) resident, { tiers with store := store }, [])
    | (none, store) => some (.missed vm key, { tiers with store := store }, [])
  | .missed vm key, .load ok, tiers =>
    if ok then
      let entry := tiers.entries.length
      some (.fresh vm key entry, tiers.allocate (.fresh (some key) (host.loadsNative vm)),
        [.loaded vm entry (host.loadsNative vm)])
    else some (.refused vm key, tiers, [])
  | .fresh vm key entry, .proceed, tiers =>
    match tiers.store.get key with
    | (some existing, store) =>
      some (.linked vm (some key) existing, { tiers with store := store }, [])
    | (none, store) =>
      some (.linked vm (some key) entry, { tiers with store := store.put key entry }, [])
  | .install vm, .proceed, tiers =>
    some (.linked vm none tiers.entries.length, tiers.allocate (.fresh none false), [])
  | .invoke entry, .proceed, tiers => do
    let current ← tiers.entries[entry]?
    if current.isLoaded then
      some (.running entry (current.hasCompiledProgram host.target), tiers, [])
    else none
  | .running entry native, .proceed, tiers =>
    some (.invoked, tiers.update entry fun current => current.count native, [.ran entry native])
  | .observe vm entries, .proceed, tiers =>
    some (if (host.promoter vm).enabled then .sweep vm entries else .ended vm, tiers, [])
  | .sweep vm [], .proceed, tiers => some (.ended vm, tiers, [])
  | .sweep vm (entry :: rest), .proceed, tiers => do
    let current ← tiers.entries[entry]?
    if current.hasCompiledProgram host.target || !current.isLoaded then
      some (.sweep vm rest, tiers, [])
    else if (host.promoter vm).threshold = 0 then
      some (.promoting vm entry .sweep (.entered true) rest, tiers, [])
    else some (.seen vm entry rest, tiers, [])
  | .seen vm entry rest, .proceed, tiers => do
    let current ← tiers.entries[entry]?
    if current.interpretedInvocations < (host.promoter vm).threshold then
      some (.sweep vm rest, tiers, [])
    else some (.promoting vm entry .sweep (.entered false) rest, tiers, [])
  | .prewarm vm entries, .proceed, tiers =>
    some (if (host.policy vm).isLazy host.target.x86 then .gather vm entries [] else .ended vm,
      tiers, [])
  | .gather vm [] kept, .proceed, tiers => some (.warm vm kept, tiers, [])
  | .gather vm (entry :: rest) kept, .proceed, tiers => do
    let current ← tiers.entries[entry]?
    if current.hasCompiledProgram host.target then some (.gather vm rest kept, tiers, [])
    else some (.gather vm rest (kept ++ [entry]), tiers, [])
  | .warm vm [], .proceed, tiers => some (.ended vm, tiers, [])
  | .warm vm (entry :: rest), .proceed, tiers =>
    let blocking := (host.policy vm).hotThreshold host.target.x86 == some 0
    some (.promoting vm entry .prewarm (.entered blocking) rest, tiers, [.prewarmed vm entry])
  | .promoting vm entry caller call rest, choice, tiers => do
    let (call, tiers, events) ← host.promotionStep vm entry call choice tiers
    -- The job that the call spawned.
    let queue := if call = .queued then tiers.queue ++ [(vm, entry)] else tiers.queue
    some (.resume vm entry caller rest call, { tiers with queue := queue }, events)
  | .worker vm, .take job, tiers => do
    let (owner, entry) ← tiers.queue[job]?
    if owner = vm then
      some (.working vm entry .queued, { tiers with queue := tiers.queue.eraseIdx job }, [])
    else none
  | .working vm entry job, choice, tiers => do
    let (job, tiers, events) ← host.promotionStep vm entry job choice tiers
    some (.dispatch vm entry job, tiers, events)
  | _, _, _ => none

abbrev TierSystem (κ : Type) := Interleaving.System (TierPhase κ) (Tiers κ) TierEvent

/-- What a thread may set out to do: it only has the entries that some VM links. -/
def mayStart (phase : TierPhase κ) (system : TierSystem κ) : Bool :=
  let held entry := system.phases.any fun other => other.holds entry
  match phase with
  | .load _ _ => true
  | .install _ => true
  | .invoke entry => held entry
  | .observe _ entries => entries.all held
  | .prewarm _ entries => entries.all held
  | .worker vm => (host.promoter vm).hasPool && system.total (TierPhase.isWorker vm) < host.threads
  | _ => false

def step : Interleaving.Op (TierPhase κ) TierChoice → TierSystem κ → Option (TierSystem κ) :=
  Interleaving.step host.program host.mayStart

def startSystem : TierSystem κ := ⟨[], .start, []⟩

end

end TierHost

end Hpsvm
