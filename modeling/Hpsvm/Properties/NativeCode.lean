import Hpsvm.Properties.TierSteps

/-!
# Where native code comes from

However the threads of a process interleave, native code has a history: a program runs natively only
after a VM with the eager policy loaded it, or after a VM with a lazy policy promoted it, which takes
as many interpreted invocations as its threshold says, or a prewarming. So no other VM makes a VM that
is off run native code, except through an entry that they share.

## Proof strategy

The log holds every load, invocation and promotion. One invariant ties the log to the entries, to the
jobs that wait and to the phase of every thread, and says of each event what came before it.
-/

namespace Hpsvm

open Foundation
open Foundation.Interleaving (Holds Justified)

variable {κ : Type} {host : TierHost}

namespace TierHost

/-! ### The log -/

/-- How often an entry was run one way. -/
def runs (log : List (Nat × TierEvent)) (entry : Nat) (native : Bool) : Nat :=
  log.countP fun logged => logged.2 = .ran entry native

theorem runs_append (log more : List (Nat × TierEvent)) (entry : Nat) (native : Bool) :
    runs (log ++ more) entry native = runs log entry native + runs more entry native :=
  List.countP_append

/-- A VM with a lazy policy may promote an entry: it was interpreted as often as the threshold says, or
the VM prewarmed it. -/
def Earned (host : TierHost) (log : List (Nat × TierEvent)) (vm entry : Nat) : Prop :=
  ∃ threshold, host.policy vm = .lazy threshold ∧ host.target.x86 = true ∧
    (threshold ≤ runs log entry false ∨ ∃ process, (process, .prewarmed vm entry) ∈ log)

/-- A compiled program was published for an entry. -/
def Published (log : List (Nat × TierEvent)) (entry : Nat) : Prop :=
  ∃ process vm, (process, .loaded vm entry true) ∈ log ∨ (process, .promoted vm entry true) ∈ log

/-- What has to come before an event. -/
def Cause (host : TierHost) (log : List (Nat × TierEvent)) : TierEvent → Prop
  | .loaded vm _ native => native = true → host.policy vm = .eager ∧ host.target.hasJit = true
  | .ran entry native => native = true → Published log entry
  | .promoted vm entry outcome =>
    Earned host log vm entry ∧ (outcome = true → host.target.hasJit = true)
  | .dropped vm entry => Earned host log vm entry
  | .panicked vm entry => Earned host log vm entry
  | .prewarmed _ _ => True

theorem Earned.append {log : List (Nat × TierEvent)} {vm entry : Nat}
    (earned : Earned host log vm entry) (more : List (Nat × TierEvent)) :
    Earned host (log ++ more) vm entry := by
  obtain ⟨threshold, policy, x86, interpreted | ⟨process, logged⟩⟩ := earned
  · refine ⟨threshold, policy, x86, .inl ?_⟩
    rw [runs_append]
    exact Nat.le_add_right_of_le interpreted
  · exact ⟨threshold, policy, x86, .inr ⟨process, List.mem_append_left _ logged⟩⟩

theorem Published.append {log : List (Nat × TierEvent)} {entry : Nat} (published : Published log entry)
    (more : List (Nat × TierEvent)) : Published (log ++ more) entry := by
  obtain ⟨process, vm, logged⟩ := published
  exact ⟨process, vm, logged.imp (List.mem_append_left _) (List.mem_append_left _)⟩

/-- What the log says of the entries and of the jobs that wait. -/
structure Recorded (host : TierHost) (tiers : Tiers κ) (log : List (Nat × TierEvent)) : Prop where
  interpreted : ∀ entry current, tiers.entries[entry]? = some current →
    current.interpretedInvocations = runs log entry false % atomicRange
  known : ∀ process entry native, (process, .ran entry native) ∈ log → entry < tiers.entries.length
  compiled : ∀ entry current, tiers.entries[entry]? = some current → current.compiled = true →
    Published log entry
  queued : ∀ vm entry, (vm, entry) ∈ tiers.queue → Earned host log vm entry
  justified : Justified (Cause host) log

/-- What the log says of a thread. -/
def Vouched (host : TierHost) (tiers : Tiers κ) (log : List (Nat × TierEvent)) : TierPhase κ → Prop
  | .running entry native =>
    entry < tiers.entries.length ∧ (native = true → Published log entry)
  | .sweep vm _ => (host.policy vm).isLazy host.target.x86 = true
  | .seen vm _ _ => (host.policy vm).isLazy host.target.x86 = true
  | .gather vm _ _ => (host.policy vm).isLazy host.target.x86 = true
  | .warm vm _ => (host.policy vm).isLazy host.target.x86 = true
  | .promoting vm entry _ _ _ => Earned host log vm entry
  | .working vm entry _ => Earned host log vm entry
  | _ => True

theorem Cause.append (log more : List (Nat × TierEvent)) (event : TierEvent)
    (cause : Cause host log event) : Cause host (log ++ more) event := by
  cases event with
  | loaded vm entry native => exact cause
  | ran entry native => exact fun isNative => (cause isNative).append more
  | promoted vm entry outcome => exact ⟨cause.1.append more, cause.2⟩
  | dropped vm entry => exact Earned.append cause more
  | panicked vm entry => exact Earned.append cause more
  | prewarmed vm entry => trivial

theorem Vouched.append {tiers tiers' : Tiers κ} {log : List (Nat × TierEvent)}
    (longer : tiers.entries.length ≤ tiers'.entries.length) (more : List (Nat × TierEvent))
    {phase : TierPhase κ} (vouched : Vouched host tiers log phase) :
    Vouched host tiers' (log ++ more) phase := by
  cases phase with
  | running entry native =>
    exact ⟨Nat.lt_of_lt_of_le vouched.1 longer, fun isNative => (vouched.2 isNative).append more⟩
  | promoting vm entry caller call rest => exact Earned.append vouched more
  | working vm entry job => exact Earned.append vouched more
  | _ => exact vouched

/-! ### One step -/

section

variable [DecidableEq κ]

section

variable {phase phase' : TierPhase κ} {tiers tiers' : Tiers κ} {events : List TierEvent}
  {log : List (Nat × TierEvent)}

theorem Took.caused (took : Took host phase tiers phase' tiers' events)
    (vouched : Vouched host tiers log phase) :
    ∀ event ∈ events, Cause host log event := by
  -- A promotion that its thread has earned.
  have promotion : ∀ {vm entry call call' tiers'},
      Promotes host vm entry call tiers call' tiers' events → Earned host log vm entry →
      ∀ event ∈ events, Cause host log event := by
    intro vm entry call call' tiers' promotes earned event member
    rw [promotes.events] at member
    cases call' with
    | compiled blocking outcome elapsed =>
      rw [List.mem_singleton.1 member]
      refine ⟨earned, ?_⟩
      intro succeeded
      subst succeeded
      exact promotes.compiles blocking elapsed rfl
    | dropped =>
      rw [List.mem_singleton.1 member]
      exact earned
    | unwinding blocking done =>
      rw [List.mem_singleton.1 member]
      exact earned
    | _ => cases member
  cases took with
  | @loaded vm key _ =>
    intro event member
    rw [List.mem_singleton.1 member]
    exact host.eager_of_loadsNative vm
  | counted =>
    intro event member
    rw [List.mem_singleton.1 member]
    exact vouched.2
  | warms =>
    intro event member
    rw [List.mem_singleton.1 member]
    trivial
  | promotes promotes => exact promotion promotes vouched
  | works promotes => exact promotion promotes vouched
  | _ =>
    intro event member
    cases member

/-- Only an invocation of an entry that is there is counted. -/
theorem Took.ran_inside (took : Took host phase tiers phase' tiers' events)
    (vouched : Vouched host tiers log phase) {entry : Nat} {native : Bool}
    (reported : TierEvent.ran entry native ∈ events) : entry < tiers.entries.length := by
  have quiet : ∀ vm other call, TierEvent.ran entry native ∉ promotionEvents vm other call := by
    intro vm other call member
    unfold promotionEvents at member
    split at member <;> simp at member
  cases took with
  | counted =>
    cases List.mem_singleton.1 reported
    exact vouched.1
  | loaded => cases List.mem_singleton.1 reported
  | warms => cases List.mem_singleton.1 reported
  | promotes promotes => exact absurd (promotes.events ▸ reported) (quiet _ _ _)
  | works promotes => exact absurd (promotes.events ▸ reported) (quiet _ _ _)
  | _ => cases reported

theorem Took.recorded (took : Took host phase tiers phase' tiers' events)
    (recorded : Recorded host tiers log) (vouched : Vouched host tiers log phase) (process : Nat) :
    Recorded host tiers' (log ++ events.map fun event => (process, event)) := by
  have logged : ∀ entry native,
      runs (log ++ events.map fun event => (process, event)) entry native =
        runs log entry native + events.countP fun event => event = .ran entry native := by
    intro entry native
    rw [runs_append]
    simp [runs, List.countP_map, Function.comp_def]
  refine ⟨?_, ?_, ?_, ?_, recorded.justified.append Cause.append (took.caused vouched) process⟩
  · intro entry current' there
    rw [logged]
    rcases took.entry_origin there with ⟨current, before, _, counts⟩ | ⟨rfl, _, counts⟩
    · have known := recorded.interpreted entry current before
      rcases counts with ⟨same, none⟩ | ⟨more, one⟩
      · rw [same, none, known, Nat.add_zero]
      · rw [more, one, known, Nat.mod_add_mod]
    · -- Nothing ran under a name that no entry had.
      have never : runs log tiers.entries.length false = 0 := by
        refine List.countP_eq_zero.2 fun logged member => ?_
        intro ran
        have inside := recorded.known logged.1 tiers.entries.length false
          (by rw [← of_decide_eq_true ran]; exact member)
        exact Nat.lt_irrefl _ inside
      rcases counts with ⟨same, none⟩ | ⟨more, one⟩
      · rw [same, none, never]
        rfl
      · rw [more, one, never]
  · intro mover entry native member
    rcases List.mem_append.1 member with before | now
    · exact Nat.lt_of_lt_of_le (recorded.known mover entry native before) took.length_le
    · obtain ⟨event, reported, same⟩ := List.mem_map.1 now
      cases same
      exact Nat.lt_of_lt_of_le (took.ran_inside vouched reported) took.length_le
  · intro entry current' there compiled
    rcases took.entry_origin there with ⟨current, before, published, _⟩ | ⟨_, published, _⟩
    · rcases published compiled with already | ⟨vm, event⟩
      · exact (recorded.compiled entry current before already).append _
      · exact ⟨process, vm, .inr (List.mem_append_right _ (List.mem_map_of_mem event))⟩
    · obtain ⟨vm, event⟩ := published compiled
      exact ⟨process, vm, .inl (List.mem_append_right _ (List.mem_map_of_mem event))⟩
  · intro vm entry waits
    rcases took.queue_cases waits with before | ⟨caller, call, rest, rfl⟩
    · exact (recorded.queued vm entry before).append _
    · exact Earned.append vouched _

theorem isLazy_of_earned {vm entry : Nat} (earned : Earned host log vm entry) :
    (host.policy vm).isLazy host.target.x86 = true := by
  obtain ⟨threshold, policy, x86, _⟩ := earned
  exact (host.isLazy_iff vm).2 ⟨threshold, policy, x86⟩

theorem Took.vouched (took : Took host phase tiers phase' tiers' events)
    (recorded : Recorded host tiers log) (vouched : Vouched host tiers log phase) (process : Nat) :
    Vouched host tiers' (log ++ events.map fun event => (process, event)) phase' := by
  cases took with
  | @invoked entry current _ there =>
    refine ⟨(List.getElem?_eq_some_iff.1 there).1, ?_⟩
    intro native
    have compiled : current.compiled = true := by
      simp only [TierEntry.hasCompiledProgram, Bool.and_eq_true] at native
      exact native.2
    exact (recorded.compiled entry current there compiled).append _
  | @observed vm _ _ enabled =>
    obtain ⟨threshold, policy, x86, _⟩ := (host.enabled_iff vm).1 enabled
    exact (host.isLazy_iff vm).2 ⟨threshold, policy, x86⟩
  | skipped => exact vouched
  | @blocked vm entry rest _ zero =>
    obtain ⟨threshold, policy, x86⟩ := (host.isLazy_iff vm).1 vouched
    refine ⟨threshold, policy, x86, .inl ?_⟩
    rw [← threshold_of_lazy policy x86, zero]
    exact Nat.zero_le _
  | seen => exact vouched
  | cold => exact vouched
  | @hot vm entry rest current _ there many =>
    obtain ⟨threshold, policy, x86⟩ := (host.isLazy_iff vm).1 vouched
    refine Earned.append ⟨threshold, policy, x86, .inl ?_⟩ _
    rw [← threshold_of_lazy policy x86]
    apply Nat.le_trans many
    -- The counter may have wrapped, and then it shows less.
    rw [recorded.interpreted entry current there]
    exact Nat.mod_le _ _
  | prewarmed isLazy => exact isLazy
  | gathered => exact vouched
  | warming => exact vouched
  | @warms vm entry rest blocking _ =>
    obtain ⟨threshold, policy, x86⟩ := (host.isLazy_iff vm).1 vouched
    exact ⟨threshold, policy, x86, .inr ⟨process, by simp⟩⟩
  | @promotes vm entry caller call rest call' _ _ _ promotes =>
    have earned : Earned host log vm entry := vouched
    rcases TierPhase.resume_cases vm entry caller rest call' with
      ⟨_, stopped⟩ | ⟨_, returned⟩ | ⟨_, goes⟩
    · rw [stopped]
      trivial
    · rw [returned]
      cases caller with
      | sweep => exact isLazy_of_earned earned
      | prewarm => exact isLazy_of_earned earned
    · rw [goes]
      exact earned.append _
  | @taken vm entry job _ queued =>
    exact (recorded.queued vm entry (List.mem_of_getElem? queued)).append _
  | @works vm entry job job' _ _ _ promotes =>
    unfold TierPhase.dispatch
    split
    · trivial
    · exact Earned.append vouched _
  | _ => trivial

end

/-! ### Runs -/

theorem recorded_step (op : Interleaving.Op (TierPhase κ) TierChoice) (system next : TierSystem κ)
    (holds : Holds (Recorded host) (Vouched host) system)
    (taken : host.step op system = some next) : Holds (Recorded host) (Vouched host) next := by
  refine Holds.step ?_ ?_ op system next holds taken
  · intro phase system allowed
    cases phase with
    | load | install | invoke | observe | prewarm | worker => trivial
    | _ => cases allowed
  · intro process phase choice tiers log phase' tiers' events recorded vouched ran
    have took := took_of_program ran
    exact ⟨took.recorded recorded vouched process, took.vouched recorded vouched process,
      fun other known => known.append took.length_le _⟩

theorem recorded_run {ops : List (Interleaving.Op (TierPhase κ) TierChoice)} {reached : TierSystem κ}
    (ran : Runs.run host.step ops startSystem = some reached) :
    Holds (Recorded host) (Vouched host) reached := by
  refine Runs.invariant_run _ recorded_step ⟨⟨?_, ?_, ?_, ?_, Justified.nil⟩, ?_⟩ ran
  · intro entry current there
    cases there
  · intro process entry native member
    cases member
  · intro entry current there
    cases there
  · intro vm entry member
    cases member
  · intro phase member
    cases member

/-- However the threads of a process interleave: a program runs natively only after a VM of the eager
policy loaded it, or after a VM of a lazy policy promoted it; and at that promotion the program had
been interpreted as often as the threshold of that VM says, or that VM had prewarmed it. -/
theorem native_code_is_earned (host : TierHost)
    (ops : List (Interleaving.Op (TierPhase κ) TierChoice)) (reached : TierSystem κ)
    (ran : Runs.run host.step ops startSystem = some reached) (process entry : Nat)
    (before after : List (Nat × TierEvent))
    (split : reached.log = before ++ (process, .ran entry true) :: after) :
    host.target.hasJit = true ∧
    ((∃ loader vm, (loader, .loaded vm entry true) ∈ before ∧ host.policy vm = .eager) ∨
    ∃ promoter vm threshold earlier later,
      before = earlier ++ (promoter, .promoted vm entry true) :: later ∧
      host.policy vm = .lazy threshold ∧
      (threshold ≤ runs earlier entry false ∨
        ∃ prewarmer, (prewarmer, .prewarmed vm entry) ∈ earlier)) := by
  have justified := (recorded_run ran).shared.justified
  obtain ⟨source, vm, loaded | promoted⟩ := justified before process _ after split rfl
  · obtain ⟨earlier, later, rfl⟩ := List.append_of_mem loaded
    have cause : Cause host earlier (.loaded vm entry true) := by
      apply justified earlier source _ (later ++ (process, .ran entry true) :: after)
      rw [split, List.append_assoc]
      rfl
    obtain ⟨eager, hasJit⟩ := cause rfl
    exact ⟨hasJit, .inl ⟨source, vm, loaded, eager⟩⟩
  · obtain ⟨earlier, later, rfl⟩ := List.append_of_mem promoted
    have cause : Cause host earlier (.promoted vm entry true) := by
      apply justified earlier source _ (later ++ (process, .ran entry true) :: after)
      rw [split, List.append_assoc]
      rfl
    obtain ⟨⟨threshold, policy, _, earned⟩, hasJit⟩ := cause
    exact ⟨hasJit rfl, .inr ⟨source, vm, threshold, earlier, later, rfl, policy, earned⟩⟩

end

end TierHost

namespace Sample

/-- VMs that promote a program after one interpreted invocation. -/
def lazyHost : TierHost := ⟨⟨true, false⟩, 4, fun _ => ⟨.lazy 1, true⟩⟩

/-- The system a run ends in. -/
def tieredAfter (ops : List (Interleaving.Op (TierPhase Nat) TierChoice)) :
    TierHost.TierSystem Nat :=
  (Runs.run lazyHost.step ops TierHost.startSystem).getD TierHost.startSystem

theorem run_eq_tieredAfter {ops : List (Interleaving.Op (TierPhase Nat) TierChoice)}
    (runs : (Runs.run lazyHost.step ops TierHost.startSystem).isSome = true) :
    Runs.run lazyHost.step ops TierHost.startSystem = some (tieredAfter ops) := by
  obtain ⟨reached, ran⟩ := Option.isSome_iff_exists.1 runs
  rw [tieredAfter, ran, Option.getD_some]

/-- A VM loads a program, and runs it. -/
def firstInvocation : List (Interleaving.Op (TierPhase Nat) TierChoice) :=
  [.start (.load 0 7), .move 0 .proceed, .move 0 (.load true), .move 0 .proceed,
    .start (.invoke 0), .move 1 .proceed, .move 1 .proceed]

/-- The sweep after it hands the program to the pool. -/
def firstSweep : List (Interleaving.Op (TierPhase Nat) TierChoice) :=
  .start (.observe 0 [0]) :: List.replicate 7 (.move 2 .proceed)

/-- A worker compiles the program, and it runs again. -/
def secondInvocation : List (Interleaving.Op (TierPhase Nat) TierChoice) :=
  [.start (.worker 0), .move 3 (.take 0), .move 3 .proceed, .move 3 .proceed,
    .move 3 (.compile false true 5), .start (.invoke 0), .move 4 .proceed, .move 4 .proceed]

theorem secondInvocation_earned :
    lazyHost.target.hasJit = true ∧
    ((∃ loader vm, (loader, .loaded vm 0 true) ∈
        [(0, .loaded 0 0 false), (1, .ran 0 false), (3, TierEvent.promoted 0 0 true)] ∧
        lazyHost.policy vm = .eager) ∨
      ∃ promoter vm threshold earlier later,
        [(0, .loaded 0 0 false), (1, .ran 0 false), (3, TierEvent.promoted 0 0 true)] =
          earlier ++ (promoter, .promoted vm 0 true) :: later ∧
        lazyHost.policy vm = .lazy threshold ∧
        (threshold ≤ TierHost.runs earlier 0 false ∨
          ∃ prewarmer, (prewarmer, .prewarmed vm 0) ∈ earlier)) :=
  TierHost.native_code_is_earned lazyHost (firstInvocation ++ firstSweep ++ secondInvocation)
    (tieredAfter (firstInvocation ++ firstSweep ++ secondInvocation))
    (run_eq_tieredAfter (by decide +kernel)) 4 0 _ [] (by decide +kernel)

end Sample

end Hpsvm
