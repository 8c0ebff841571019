import Hpsvm.Properties.NativeCode

/-!
# Hot programs

The sweep after a transaction loses no hot program. When it is over, every program of its snapshot that
had reached the threshold as the sweep began is compiled, or a promotion of it ended without success
meanwhile, or its job still waits in the queue or is in the hands of a worker. With a threshold of zero
the sweep compiles on its own thread, and no job is left.

## Proof strategy

The obligation to promote a program has one holder at a time: the sweep, while the program is ahead of
it or in its hands; then the queue; then a worker; until a compiled program is published or an event
says that the promotion came to nothing. Each step of each thread hands it on.
-/

namespace Hpsvm

open Foundation
open Foundation.Interleaving (Holds step_cases)

variable {κ : Type} {host : TierHost}

namespace TierHost

/-! ### Obligations -/

/-- A promotion that came to nothing. -/
def givesUp (vm entry : Nat) (event : TierEvent) : Bool :=
  event = .promoted vm entry false || event = .dropped vm entry || event = .panicked vm entry

/-- How often the promotion of an entry came to nothing. -/
def gaveUp (log : List (Nat × TierEvent)) (vm entry : Nat) : Nat :=
  log.countP fun logged => givesUp vm entry logged.2

theorem gaveUp_append (log more : List (Nat × TierEvent)) (vm entry : Nat) :
    gaveUp (log ++ more) vm entry = gaveUp log vm entry + gaveUp more vm entry :=
  List.countP_append

theorem gaveUp_events (process vm entry : Nat) (events : List TierEvent) :
    gaveUp (events.map fun event => (process, event)) vm entry =
      events.countP (givesUp vm entry) := by
  simp [gaveUp, List.countP_map, Function.comp_def]

/-- The entry is compiled. -/
def IsCompiled (entry : Nat) (tiers : Tiers κ) : Prop :=
  ∃ current, tiers.entries[entry]? = some current ∧ current.compiled = true

/-- The entry is compiled, or its promotion came to nothing again. -/
def Settled (base vm entry : Nat) (system : TierSystem κ) : Prop :=
  IsCompiled entry system.shared ∨ base < gaveUp system.log vm entry

/-- A job for the entry waits, or a worker has it before it. -/
def Outstanding (vm entry : Nat) (system : TierSystem κ) : Prop :=
  (vm, entry) ∈ system.shared.queue ∨
    ∃ job, TierPhase.working vm entry job ∈ system.phases ∧ job.unsettled false = true

/-- A thread holds the obligation to promote the entry: it is ahead of the sweep or in its hands. A
sweep that a panic ended keeps what it had. -/
def Awaits (vm entry : Nat) (blocking : Bool) : TierPhase κ → Prop
  | .observe other entries => other = vm ∧ entry ∈ entries
  | .sweep other rest => other = vm ∧ entry ∈ rest
  | .seen other current rest => other = vm ∧ blocking = false ∧ (current = entry ∨ entry ∈ rest)
  | .promoting other current .sweep call rest =>
    other = vm ∧ (current = entry ∧ call.unsettled blocking = true ∨ entry ∈ rest)
  | .unwound _ => True
  | _ => False

/-! ### One step -/

section

variable {vm entry : Nat} {call call' : PromotionPhase} {tiers tiers' : Tiers κ}
  {events : List TierEvent} {blocking : Bool}

/-- A promotion that leaves the unsettled phases settles its entry. -/
theorem Promotes.settled_or (promotes : Promotes host vm entry call tiers call' tiers' events)
    (enabled : (host.promoter vm).enabled = true) (unsettled : call.unsettled blocking = true)
    (there : ∃ current, tiers.entries[entry]? = some current) :
    call'.unsettled blocking = true ∨ IsCompiled entry tiers' ∨
      0 < events.countP (givesUp vm entry) := by
  obtain ⟨current, there⟩ := there
  have modified : tiers'.entries[entry]? = some (current.promotedTo call') := by
    rw [promotes.entries, List.getElem?_modify_eq, there]
    rfl
  have gives : ∀ event, event ∈ promotionEvents vm entry call' → givesUp vm entry event = true →
      0 < events.countP (givesUp vm entry) := by
    intro event member givesUp
    rw [promotes.events]
    exact List.countP_pos_iff.2 ⟨event, member, givesUp⟩
  rcases promotes.settles blocking enabled unsettled with
    still | ⟨rfl, old, same, compiled⟩ | rfl | ⟨done, rfl⟩ | ⟨outcome, elapsed, rfl⟩
  · exact .inl still
  · rw [there] at same
    cases same
    exact .inr (.inl ⟨_, modified, compiled⟩)
  · exact .inr (.inr (gives (.dropped vm entry) (by simp [promotionEvents]) (by simp [givesUp])))
  · exact .inr (.inr (gives (.panicked vm entry) (by simp [promotionEvents]) (by simp [givesUp])))
  · cases outcome with
    | true => exact .inr (.inl ⟨_, modified, rfl⟩)
    | false =>
      exact .inr (.inr (gives (.promoted vm entry false) (by simp [promotionEvents])
        (by simp [givesUp])))

theorem dispatch_of_unsettled {job : PromotionPhase} (unsettled : job.unsettled blocking = true) :
    TierPhase.dispatch vm entry job = (.working vm entry job : TierPhase κ) := by
  cases job with
  | finished => cases unsettled
  | _ => rfl

theorem idle_of_unsettled (unsettled : call.unsettled blocking = true) : call.idle = false := by
  cases call <;> simp_all [PromotionPhase.unsettled, PromotionPhase.idle]

section

variable [DecidableEq κ] {phase phase' : TierPhase κ}

theorem Took.isCompiled (took : Took host phase tiers phase' tiers' events)
    (compiled : IsCompiled entry tiers) : IsCompiled entry tiers' := by
  obtain ⟨current, there, isCompiled⟩ := compiled
  obtain ⟨current', there', kept⟩ := took.entry_kept there
  exact ⟨current', there', kept.2 isCompiled⟩

/-- A sweep with a hot program in it hands it on. -/
theorem Took.awaits (took : Took host phase tiers phase' tiers' events)
    (enabled : (host.promoter vm).enabled = true)
    (zero : blocking = true ↔ (host.promoter vm).threshold = 0)
    {current : TierEntry κ} (there : tiers.entries[entry]? = some current)
    (loaded : current.isLoaded = true)
    (hot : (host.promoter vm).threshold ≤ current.interpretedInvocations)
    (awaits : Awaits vm entry blocking phase) :
    Awaits vm entry blocking phase' ∨ IsCompiled entry tiers' ∨
      0 < events.countP (givesUp vm entry) ∨ blocking = false ∧ (vm, entry) ∈ tiers'.queue := by
  cases took with
  | idle disabled =>
    obtain ⟨rfl, _⟩ := awaits
    rw [enabled] at disabled
    cases disabled
  | observed => exact .inl awaits
  | swept => cases awaits.2
  | @skipped _ head rest old _ found nothing =>
    obtain ⟨rfl, listed⟩ := awaits
    rcases List.mem_cons.1 listed with rfl | later
    · rw [there] at found
      cases found
      rcases nothing with compiled | unloaded
      · simp only [TierEntry.hasCompiledProgram, Bool.and_eq_true] at compiled
        exact .inr (.inl ⟨current, there, compiled.2⟩)
      · rw [loaded] at unloaded
        cases unloaded
    · exact .inl ⟨rfl, later⟩
  | @blocked _ head rest _ isZero =>
    obtain ⟨rfl, listed⟩ := awaits
    have isBlocking : blocking = true := zero.2 isZero
    subst isBlocking
    rcases List.mem_cons.1 listed with rfl | later
    · exact .inl ⟨rfl, .inl ⟨rfl, rfl⟩⟩
    · exact .inl ⟨rfl, .inr later⟩
  | @seen _ head rest _ positive =>
    obtain ⟨rfl, listed⟩ := awaits
    have pooled : blocking = false := by
      cases blocking with
      | true => exact absurd (zero.1 rfl) positive
      | false => rfl
    exact .inl ⟨rfl, pooled, (List.mem_cons.1 listed).imp Eq.symm id⟩
  | @cold _ head rest old _ found few =>
    obtain ⟨rfl, _, rfl | later⟩ := awaits
    · rw [there] at found
      cases found
      exact absurd hot (Nat.not_le_of_lt few)
    · exact .inl ⟨rfl, later⟩
  | @hot _ head rest old _ found many =>
    obtain ⟨rfl, rfl, rfl | later⟩ := awaits
    · exact .inl ⟨rfl, .inl ⟨rfl, rfl⟩⟩
    · exact .inl ⟨rfl, .inr later⟩
  | @promotes owner other caller call rest call' _ shared _ promotes =>
    cases caller with
    | prewarm => exact absurd awaits id
    | sweep =>
      obtain ⟨rfl, ⟨rfl, unsettled⟩ | later⟩ := awaits
      · rcases promotes.settled_or enabled unsettled ⟨current, there⟩ with still | compiled | gaveUp
        · rcases TierPhase.resume_cases owner other .sweep rest call' with
            ⟨⟨done, rfl⟩, _⟩ | ⟨idle | rfl, _⟩ | ⟨_, goes⟩
          · cases still
          · rw [idle_of_unsettled still] at idle
            cases idle
          · -- The pool has it now.
            refine .inr (.inr (.inr ⟨by simpa [PromotionPhase.unsettled] using still, ?_⟩))
            simp
          · rw [goes]
            exact .inl ⟨rfl, .inl ⟨rfl, still⟩⟩
        · exact .inr (.inl compiled)
        · exact .inr (.inr (.inl gaveUp))
      · rcases TierPhase.resume_cases owner other .sweep rest call' with
          ⟨_, stopped⟩ | ⟨_, returned⟩ | ⟨_, goes⟩
        · rw [stopped]
          exact .inl trivial
        · rw [returned]
          exact .inl ⟨rfl, later⟩
        · rw [goes]
          exact .inl ⟨rfl, .inr later⟩
  | hit asks =>
    rcases asks with rfl | ⟨_, rfl⟩
    · exact absurd awaits id
    · exact absurd awaits id
  | _ => exact absurd awaits id

/-- A job waits until a worker takes it. -/
theorem Took.waits (took : Took host phase tiers phase' tiers' events)
    (waits : (vm, entry) ∈ tiers.queue) :
    (vm, entry) ∈ tiers'.queue ∨ phase' = .working vm entry .queued := by
  cases took with
  | promotes promotes =>
    rw [← promotes.queue] at waits
    dsimp only
    split
    · exact .inl (List.mem_append_left _ waits)
    · exact .inl waits
  | @taken owner other job _ queued =>
    obtain ⟨place, here⟩ := List.getElem?_of_mem waits
    by_cases same : place = job
    · rw [same, queued] at here
      cases here
      exact .inr rfl
    · exact .inl (List.mem_eraseIdx_iff_getElem?.2 ⟨place, same, here⟩)
  | works promotes =>
    rw [← promotes.queue] at waits
    exact .inl waits
  | _ => exact .inl waits

/-- What the pool owes for an entry is handed from the queue to a worker, until it is settled. -/
theorem Took.outstanding (took : Took host phase tiers phase' tiers' events)
    (enabled : (host.promoter vm).enabled = true)
    (there : ∃ current, tiers.entries[entry]? = some current) {phases : List (TierPhase κ)}
    {process : Nat} (found : phases[process]? = some phase) {log log' : List (Nat × TierEvent)}
    (outstanding : Outstanding vm entry ⟨phases, tiers, log⟩) :
    Outstanding vm entry ⟨phases.set process phase', tiers', log'⟩ ∨ IsCompiled entry tiers' ∨
      0 < events.countP (givesUp vm entry) := by
  have inside : process < phases.length := (List.getElem?_eq_some_iff.1 found).1
  have moved : phase' ∈ phases.set process phase' := List.mem_set inside _
  rcases outstanding with waits | ⟨job, works, unsettled⟩
  · rcases took.waits waits with still | rfl
    · exact .inl (.inl still)
    · exact .inl (.inr ⟨.queued, moved, rfl⟩)
  · obtain ⟨worker, isWorker⟩ := List.getElem?_of_mem works
    by_cases same : process = worker
    · subst same
      rw [found] at isWorker
      cases isWorker
      cases took with
      | hit asks => rcases asks with equal | ⟨_, equal⟩ <;> cases equal
      | @works _ _ _ job' _ _ _ promotes =>
        rcases promotes.settled_or enabled unsettled there with still | settled
        · refine .inl (.inr ⟨job', ?_, still⟩)
          rw [dispatch_of_unsettled still] at moved ⊢
          exact moved
        · exact .inr settled
    · refine .inl (.inr ⟨job, ?_, unsettled⟩)
      exact List.mem_of_getElem? (by rwa [List.getElem?_set_ne same])

end

end

/-! ### Runs -/

section

variable [DecidableEq κ]

/-- A sweep and what became of a hot program of its snapshot. -/
structure Tracked (host : TierHost) (base sweeper vm entry : Nat) (blocking : Bool)
    (system : TierSystem κ) : Prop where
  since : base ≤ gaveUp system.log vm entry
  loaded : ∃ current, system.shared.entries[entry]? = some current ∧ current.isLoaded = true
  hot : (host.promoter vm).threshold ≤ runs system.log entry false
  held : ∃ phase, system.phases[sweeper]? = some phase ∧
    (Awaits vm entry blocking phase ∨ Settled base vm entry system ∨
      blocking = false ∧ Outstanding vm entry system)

theorem tracked_step {base sweeper vm entry : Nat} {blocking : Bool}
    (enabled : (host.promoter vm).enabled = true)
    (zero : blocking = true ↔ (host.promoter vm).threshold = 0)
    {op : Interleaving.Op (TierPhase κ) TierChoice} {system next : TierSystem κ}
    (holds : Holds (Recorded host) (Vouched host) system)
    (few : runs system.log entry false < atomicRange)
    (tracked : Tracked host base sweeper vm entry blocking system)
    (taken : host.step op system = some next) :
    Tracked host base sweeper vm entry blocking next := by
  obtain ⟨since, ⟨current, there, loaded⟩, hot, phase, found, held⟩ := tracked
  have inside : sweeper < system.phases.length := (List.getElem?_eq_some_iff.1 found).1
  rcases step_cases taken with
    ⟨new, _, rfl⟩ | ⟨mover, old, choice, phase', tiers', events, moving, ran, rfl⟩
  · -- A new thread changes nothing for the others.
    refine ⟨since, ⟨current, there, loaded⟩, hot, phase, ?_, ?_⟩
    · rwa [List.getElem?_append_left inside]
    · refine held.imp id (Or.imp id (And.imp id (Or.imp id ?_)))
      rintro ⟨job, works, unsettled⟩
      exact ⟨job, List.mem_append_left _ works, unsettled⟩
  · have took := took_of_program ran
    obtain ⟨current', there', kept⟩ := took.entry_kept there
    have interpreted : (host.promoter vm).threshold ≤ current.interpretedInvocations := by
      rw [holds.shared.interpreted entry current there, Nat.mod_eq_of_lt few]
      exact hot
    have settled : IsCompiled entry tiers' ∨ 0 < events.countP (givesUp vm entry) →
        Settled base vm entry ⟨system.phases.set mover phase', tiers',
          system.log ++ events.map fun event => (mover, event)⟩ := by
      refine Or.imp id fun reported => ?_
      simp only [gaveUp_append, gaveUp_events]
      omega
    refine ⟨?_, ⟨current', there', ?_⟩, ?_, ?_⟩
    · rw [gaveUp_append]
      exact Nat.le_add_right_of_le since
    · rw [TierEntry.isLoaded, kept.1]
      exact loaded
    · rw [runs_append]
      exact Nat.le_add_right_of_le hot
    · have here : ∃ after, (system.phases.set mover phase')[sweeper]? = some after ∧
          (mover = sweeper ∧ old = phase ∧ after = phase' ∨ after = phase) := by
        by_cases same : mover = sweeper
        · subst same
          rw [moving] at found
          cases found
          exact ⟨phase', List.getElem?_set_self inside, .inl ⟨rfl, rfl, rfl⟩⟩
        · exact ⟨phase, by rwa [List.getElem?_set_ne same], .inr rfl⟩
      obtain ⟨after, isAfter, moved⟩ := here
      refine ⟨after, isAfter, ?_⟩
      rcases held with awaits | (compiled | gaveUp) | ⟨pooled, outstanding⟩
      · rcases moved with ⟨_, rfl, rfl⟩ | rfl
        · rcases took.awaits enabled zero there loaded interpreted awaits with
            still | compiled | reported | ⟨pooled, queued⟩
          · exact .inl still
          · exact .inr (.inl (settled (.inl compiled)))
          · exact .inr (.inl (settled (.inr reported)))
          · exact .inr (.inr ⟨pooled, .inl queued⟩)
        · exact .inl awaits
      · exact .inr (.inl (settled (.inl (took.isCompiled compiled))))
      · refine .inr (.inl (.inr ?_))
        rw [gaveUp_append]
        exact Nat.lt_add_right _ gaveUp
      · rcases took.outstanding enabled ⟨current, there⟩ moving outstanding with still | ended
        · exact .inr (.inr ⟨pooled, still⟩)
        · exact .inr (.inl (settled ended))

theorem runs_le_of_step {op : Interleaving.Op (TierPhase κ) TierChoice} {system next : TierSystem κ}
    (taken : host.step op system = some next) (entry : Nat) (native : Bool) :
    runs system.log entry native ≤ runs next.log entry native := by
  rcases step_cases taken with
    ⟨new, _, rfl⟩ | ⟨mover, old, choice, phase', tiers', events, moving, ran, rfl⟩
  · exact Nat.le_refl _
  · rw [runs_append]
    exact Nat.le_add_right _ _

/-- A sweep loses no hot program, however the threads interleave. Take a program of its snapshot that
had been interpreted as often as the threshold says when the sweep began. When the sweep is over, the
program is compiled, or since then a promotion of it failed, panicked or was dropped, or its job is in
the queue or with a worker; at a threshold of zero the first two are all that is left. -/
theorem hot_programs_are_promoted (host : TierHost) (vm threshold : Nat)
    (policy : host.policy vm = .lazy threshold) (x86 : host.target.x86 = true)
    (pool : (host.vms vm).poolBuilds = true)
    (before after : List (Interleaving.Op (TierPhase κ) TierChoice)) (begun swept : TierSystem κ)
    (reached : Runs.run host.step before startSystem = some begun) (entries : List Nat)
    (ran : Runs.run host.step (.start (.observe vm entries) :: after) begun = some swept)
    (ended : swept.phases[begun.phases.length]? = some (.ended vm)) (entry : Nat)
    (listed : entry ∈ entries)
    (loaded : ∃ current, begun.shared.entries[entry]? = some current ∧ current.isLoaded = true)
    (hot : threshold ≤ runs begun.log entry false)
    (few : runs swept.log entry false < atomicRange) :
    Settled (gaveUp begun.log vm entry) vm entry swept ∨
      threshold ≠ 0 ∧ Outstanding vm entry swept := by
  have enabled : (host.promoter vm).enabled = true :=
    (host.enabled_iff vm).2 ⟨threshold, policy, x86, pool⟩
  have isThreshold := threshold_of_lazy policy x86
  have zero : decide (threshold = 0) = true ↔ (host.promoter vm).threshold = 0 := by
    rw [isThreshold, decide_eq_true_iff]
  obtain ⟨started, begins, remaining⟩ := Option.bind_eq_some_iff.1 ran
  -- The count of a program only grows, so it stays below the range throughout.
  have tracked : Holds (Recorded host) (Vouched host) swept ∧
      (runs swept.log entry false < atomicRange →
        Tracked host (gaveUp begun.log vm entry) begun.phases.length vm entry
          (decide (threshold = 0)) swept) := by
    refine Runs.invariant_run
      (fun system : TierSystem κ => Holds (Recorded host) (Vouched host) system ∧
        (runs system.log entry false < atomicRange →
          Tracked host (gaveUp begun.log vm entry) begun.phases.length vm entry
            (decide (threshold = 0)) system)) ?_ ?_ remaining
    · rintro op system next ⟨holds, tracked⟩ taken
      refine ⟨recorded_step op system next holds taken, fun bound => ?_⟩
      have bound := Nat.lt_of_le_of_lt (runs_le_of_step taken entry false) bound
      exact tracked_step enabled zero holds bound (tracked bound) taken
    · refine ⟨recorded_step _ _ _ (recorded_run reached) begins, fun _ => ?_⟩
      obtain ⟨_, rfl⟩ := Interleaving.step_start begins
      exact ⟨Nat.le_refl _, loaded, by rwa [isThreshold], .observe vm entries,
        List.getElem?_concat_length, .inl ⟨rfl, listed⟩⟩
  obtain ⟨_, _, _, phase, found, held⟩ := tracked.2 few
  rw [ended] at found
  cases found
  rcases held with awaits | settled | ⟨pooled, outstanding⟩
  · exact absurd awaits id
  · exact .inl settled
  · exact .inr ⟨of_decide_eq_false pooled, outstanding⟩

end

end TierHost

namespace Sample

theorem firstSweep_runs : Runs.run lazyHost.step firstSweep (tieredAfter firstInvocation) =
    some (tieredAfter (firstInvocation ++ firstSweep)) := by
  have whole : Runs.run lazyHost.step (firstInvocation ++ firstSweep) TierHost.startSystem =
      some (tieredAfter (firstInvocation ++ firstSweep)) := run_eq_tieredAfter (by decide +kernel)
  rwa [Runs.run_append, run_eq_tieredAfter (by decide +kernel)] at whole

theorem firstSweep_promotes :
    TierHost.Settled 0 0 0 (tieredAfter (firstInvocation ++ firstSweep)) ∨
      1 ≠ 0 ∧ TierHost.Outstanding 0 0 (tieredAfter (firstInvocation ++ firstSweep)) :=
  have loaded : (tieredAfter firstInvocation).shared.entries[0]?.map TierEntry.isLoaded =
      some true := by decide +kernel
  TierHost.hot_programs_are_promoted lazyHost 0 1 rfl rfl rfl firstInvocation firstSweep.tail
    (tieredAfter firstInvocation) (tieredAfter (firstInvocation ++ firstSweep))
    (run_eq_tieredAfter (by decide +kernel)) [0] firstSweep_runs (by decide +kernel) 0 (by decide)
    (Option.map_eq_some_iff.1 loaded) (by decide +kernel) (by decide +kernel)

end Sample

end Hpsvm
