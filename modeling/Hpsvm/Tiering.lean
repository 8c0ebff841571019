import Hpsvm.Foundation.Interleaving

/-!
# The tier promoter

The background promotion of hot programs (`tiering.rs`). A call of `promote` and the job it puts on
the pool are one process here: its phase names what it does next, one atomic operation at a time, and
any number of calls and jobs interleave. Every operation on the atomics is a read-modify-write, so
also with relaxed ordering each counter sees its operations in one order. The failures that unit
tests inject are left out, and so are the statistics of the compiled entry.
-/

namespace Hpsvm

open Foundation

inductive JitPolicy
  | eager
  | lazy (hotThreshold : Nat)
  | off
deriving DecidableEq, Repr

/-- `effective`: only x86_64 has a compiler. -/
def JitPolicy.effective (policy : JitPolicy) (x86 : Bool) : JitPolicy :=
  if x86 then policy else .off

/-- `TierPromoter`, apart from its atomics. An enabled promoter has its pool. -/
structure TierPromoter where
  enabled : Bool
  threshold : Nat
  hasPool : Bool
  maxPending : Nat
  pool_of_enabled : enabled = true → hasPool = true

namespace TierPromoter

/-- `TierPromoter::new`, on a target and with a pool that can be built or not. -/
def new (policy : JitPolicy) (x86 builds : Bool) : TierPromoter :=
  let (enabled, threshold) := match policy.effective x86 with
    | .lazy hotThreshold => (true, hotThreshold)
    | .eager => (false, 2 ^ 64 - 1)
    | .off => (false, 2 ^ 64 - 1)
  let enabled := enabled && x86
  let hasPool := enabled && builds
  { enabled := enabled && hasPool
    threshold := threshold
    hasPool := hasPool
    maxPending := 64
    pool_of_enabled := Bool.and_elim_right }

end TierPromoter

/-! ### Counters -/

/-- The counters of `PromotionStats`. -/
inductive PromotionCounter
  | attempted
  | succeeded
  | failed
  | compileUs
  | dropped
deriving DecidableEq, Repr

/-- An addition to a counter. -/
structure Counted where
  counter : PromotionCounter
  amount : Nat
deriving DecidableEq, Repr

/-- The values of an `AtomicU64`. -/
def atomicRange : Nat := 2 ^ 64

/-- The atomics of a promoter, each an `AtomicU64`. -/
structure PromoterAtomics where
  pending : Nat
  stats : PromotionCounter → Nat

namespace PromoterAtomics

def zero : PromoterAtomics := ⟨0, fun _ => 0⟩

def addPending (atomics : PromoterAtomics) : PromoterAtomics :=
  { atomics with pending := (atomics.pending + 1) % atomicRange }

/-- `fetch_sub`, which wraps below zero. -/
def subPending (atomics : PromoterAtomics) : PromoterAtomics :=
  { atomics with
    pending := if atomics.pending = 0 then atomicRange - 1 else atomics.pending - 1 }

def count (atomics : PromoterAtomics) (counted : Counted) : PromoterAtomics :=
  { atomics with
    stats := Function.update atomics.stats counted.counter
      ((atomics.stats counted.counter + counted.amount) % atomicRange) }

end PromoterAtomics

/-! ### Calls and jobs -/

/-- Where a call or its job is. `blocking` is a call of `promote_blocking`, which compiles on its own
thread. -/
inductive PromotionPhase
  | entered (blocking : Bool)
  | returned
  | checked
  | refused
  | refunded
  | dropped
  | admitted
  | queued
  | started (blocking : Bool)
  | attempted (blocking : Bool)
  | compiled (blocking outcome : Bool) (elapsed : Nat)
  | timed (blocking outcome : Bool) (elapsed : Nat)
  | counted (blocking outcome : Bool) (elapsed : Nat)
  | finished (blocking outcome : Bool) (elapsed : Nat)
  -- A panic, before and after the guard of the job is dropped.
  | unwinding (blocking : Bool) (done : List Counted)
  | aborted (done : List Counted)
deriving DecidableEq, Repr

/-- What the code of the promoter does not decide: whether an entry is compiled already, how compiling
it ends, and whether that panics. -/
inductive PromotionChoice
  | proceed
  | observe (compiled : Bool)
  | compile (outcome : Bool) (micros : Nat)
  | panic
deriving DecidableEq, Repr

/-- `stats.succeeded` or `stats.failed`. -/
def outcomeCounter (outcome : Bool) : PromotionCounter :=
  if outcome then .succeeded else .failed

/-- What a call and its job have counted by a phase. -/
def PromotionPhase.done : PromotionPhase → List Counted
  | .dropped => [⟨.dropped, 1⟩]
  | .attempted _ => [⟨.attempted, 1⟩]
  | .compiled _ _ _ => [⟨.attempted, 1⟩]
  | .timed _ _ elapsed => [⟨.attempted, 1⟩, ⟨.compileUs, elapsed⟩]
  | .counted _ outcome elapsed =>
    [⟨.attempted, 1⟩, ⟨.compileUs, elapsed⟩, ⟨outcomeCounter outcome, 1⟩]
  | .finished _ outcome elapsed =>
    [⟨.attempted, 1⟩, ⟨.compileUs, elapsed⟩, ⟨outcomeCounter outcome, 1⟩]
  | .unwinding _ done => done
  | .aborted done => done
  | _ => []

namespace TierPromoter

/-- `promote`, its job and `promote_blocking`, one operation at a time. -/
def program (promoter : TierPromoter) :
    Interleaving.Program PromotionPhase PromotionChoice PromoterAtomics Counted
  | .entered blocking, .observe compiled, atomics =>
    if !promoter.enabled || compiled then some (.returned, atomics, [])
    else some (if blocking then .started true else .checked, atomics, [])
  | .checked, .proceed, atomics =>
    if promoter.maxPending ≤ atomics.pending then some (.refused, atomics.addPending, [])
    else some (.admitted, atomics.addPending, [])
  | .refused, .proceed, atomics => some (.refunded, atomics.subPending, [])
  | .refunded, .proceed, atomics =>
    some (.dropped, atomics.count ⟨.dropped, 1⟩, [⟨.dropped, 1⟩])
  | .admitted, .proceed, atomics =>
    if promoter.hasPool then some (.queued, atomics, [])
    else some (.returned, atomics.subPending, [])
  | .queued, .proceed, atomics => some (.started false, atomics, [])
  | .started blocking, .proceed, atomics =>
    some (.attempted blocking, atomics.count ⟨.attempted, 1⟩, [⟨.attempted, 1⟩])
  | .attempted blocking, .compile outcome micros, atomics =>
    some (.compiled blocking outcome (min micros (atomicRange - 1)), atomics, [])
  | .attempted blocking, .panic, atomics =>
    some (.unwinding blocking (PromotionPhase.attempted blocking).done, atomics, [])
  | .compiled blocking outcome elapsed, .proceed, atomics =>
    some (.timed blocking outcome elapsed, atomics.count ⟨.compileUs, elapsed⟩,
      [⟨.compileUs, elapsed⟩])
  | .timed blocking outcome elapsed, .proceed, atomics =>
    some (.counted blocking outcome elapsed, atomics.count ⟨outcomeCounter outcome, 1⟩,
      [⟨outcomeCounter outcome, 1⟩])
  | .timed blocking outcome elapsed, .panic, atomics =>
    some (.unwinding blocking (PromotionPhase.timed blocking outcome elapsed).done, atomics, [])
  -- The guard of a job on the pool.
  | .counted blocking outcome elapsed, .proceed, atomics =>
    some (.finished blocking outcome elapsed, if blocking then atomics else atomics.subPending, [])
  | .unwinding blocking done, .proceed, atomics =>
    some (.aborted done, if blocking then atomics else atomics.subPending, [])
  | _, _, _ => none

end TierPromoter

namespace PromotionPhase

/-- Occupies the thread that called. -/
def onThread : PromotionPhase → Nat
  | .entered _ => 1
  | .checked => 1
  | .refused => 1
  | .refunded => 1
  | .admitted => 1
  | .started blocking => blocking.toNat
  | .attempted blocking => blocking.toNat
  | .compiled blocking _ _ => blocking.toNat
  | .timed blocking _ _ => blocking.toNat
  | .counted blocking _ _ => blocking.toNat
  | .unwinding blocking _ => blocking.toNat
  | _ => 0

/-- An admitted job whose guard is not dropped yet. -/
def outstanding : PromotionPhase → Nat
  | .admitted => 1
  | .queued => 1
  | .started blocking => (!blocking).toNat
  | .attempted blocking => (!blocking).toNat
  | .compiled blocking _ _ => (!blocking).toNat
  | .timed blocking _ _ => (!blocking).toNat
  | .counted blocking _ _ => (!blocking).toNat
  | .unwinding blocking _ => (!blocking).toNat
  | _ => 0

/-- Neither the call nor its job goes on. -/
def idle : PromotionPhase → Bool
  | .returned => true
  | .dropped => true
  | .finished _ _ _ => true
  | .aborted _ => true
  | _ => false

/-- The call is past the compiled check. -/
def passed : PromotionPhase → Bool
  | .entered _ => false
  | .returned => false
  | _ => true

/-- Compiling panicked. -/
def panicked : PromotionPhase → Bool
  | .unwinding _ _ => true
  | .aborted _ => true
  | _ => false

end PromotionPhase

abbrev PromotionSystem := Interleaving.System PromotionPhase PromoterAtomics Counted

abbrev PromotionOp := Interleaving.Op PromotionPhase PromotionChoice

namespace TierPromoter

/-- A call starts on a thread that is free. -/
def mayStart (threads : Nat) (phase : PromotionPhase) (system : PromotionSystem) : Bool :=
  match phase with
  | .entered _ => system.total PromotionPhase.onThread < threads
  | _ => false

def step (promoter : TierPromoter) (threads : Nat) :
    PromotionOp → PromotionSystem → Option PromotionSystem :=
  Interleaving.step promoter.program (mayStart threads)

def idleSystem : PromotionSystem := ⟨[], .zero, []⟩

end TierPromoter

end Hpsvm
